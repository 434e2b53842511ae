import RetailPrintGuard.Ingestion.Worker

/-! # Historical import

Passes over rotating batches until one shows no candidate that was not seen
before. -/
namespace RetailPrintGuard.Importer.Historical
open RetailPrintGuard.Library.Checks RetailPrintGuard.Library.Rotation
open RetailPrintGuard.Ingestion.Dto RetailPrintGuard.Ingestion.Worker

/-- What became of the candidates of a pass, by adapter. -/
abbrev PassReport := List (List (Candidate × Outcome))

/-- `IngestionRunReport.candidate_keys` -/
def candidateKeys (report : PassReport) : List String :=
  report.flatten.map fun entry => entry.1.candidateKey

section
variable {σ : Type} (repository : Repository σ) (retryAttempts maximum : Nat)

/-- The passes, by how many are left: their reports, and whether none is left. -/
def drain : Nat → List String → List Adapter → σ → Except String (List PassReport × Bool)
  | 0, _, _, _ => .ok ([], true)
  | passes + 1, seenCandidates, adapters, s => do
    let (report, adapters, s) ← runOnce repository retryAttempts maximum adapters s
    let newlySeen := (candidateKeys report).filter fun key => !seenCandidates.contains key
    if newlySeen.isEmpty then
      -- the source leaves this last report out of the aggregate
      return ([report], false)
    else do
      let (later, reached) ← drain passes (seenCandidates ++ newlySeen) adapters s
      return (report :: later, reached)

/-- `HistoricalImporter.run` -/
def run (maximumPasses : Nat) (adapters : List Adapter) (s : σ) :
    Except String (List PassReport × Bool) := do
  raiseIf (maximum < 1 ∨ maximumPasses < 1) "ValueError: historical import bounds must be positive"
  drain repository retryAttempts maximum maximumPasses [] adapters s

/-- The import ends by itself and every candidate of every adapter was attempted. -/
def Drains (maximumPasses : Nat) (adapters : List Adapter) (s : σ) : Prop :=
  ∃ reports, run repository retryAttempts maximum maximumPasses adapters s = .ok (reports, false) ∧
    ∀ (i : Nat) (adapter : Adapter), adapters[i]? = some adapter →
      ∀ candidate ∈ adapter.candidates, ∃ report ∈ reports,
        ∃ outcomes : List (Candidate × Outcome), report[i]? = some outcomes ∧
          candidate ∈ outcomes.map Prod.fst

end

/-! ## What the passes show -/

/-- The candidates of an adapter in a pass. -/
def windowAt (maximum pass : Nat) (adapter : Adapter) : List Candidate :=
  window adapter.candidates maximum adapter.discoveryCursor pass

/-- An adapter before a pass. -/
def advanced (maximum pass : Nat) (adapter : Adapter) : Adapter :=
  { adapter with
    discoveryCursor := cursorAt adapter.candidates maximum adapter.discoveryCursor pass }

section
variable (adapters : List Adapter) (maximum : Nat)

/-- The candidates of a pass. -/
def passAt (pass : Nat) : List Candidate := adapters.flatMap (windowAt maximum pass)

def keysAt (pass : Nat) : List String :=
  (passAt adapters maximum pass).map Candidate.candidateKey

/-- The pass shows a key for the first time. -/
def ShowsNew (pass : Nat) : Prop :=
  ∃ key ∈ keysAt adapters maximum pass, ∀ earlier < pass, key ∉ keysAt adapters maximum earlier

/-- How many batches the largest source needs. -/
def batches : Nat :=
  (adapters.map fun adapter => (adapter.candidates.length + maximum - 1) / maximum).foldr max 0

end

variable {adapters : List Adapter} {maximum : Nat}

theorem batches_le_iff (hmaximum : 0 < maximum) {k : Nat} :
    batches adapters maximum ≤ k ↔
      ∀ adapter ∈ adapters, adapter.candidates.length ≤ k * maximum := by
  have hone : ∀ n, (n + maximum - 1) / maximum ≤ k ↔ n ≤ k * maximum := by
    intro n
    rw [← Nat.lt_succ_iff, Nat.div_lt_iff_lt_mul hmaximum, Nat.succ_mul]
    omega
  unfold batches
  induction adapters with
  | nil => simp
  | cons adapter adapters ih =>
    rw [List.map_cons, List.foldr_cons, max_le_iff, hone, List.forall_mem_cons]
    exact and_congr_right' ih

/-- After as many passes as batches there is nothing new. -/
theorem not_showsNew_batches (hmaximum : 0 < maximum) :
    ¬ShowsNew adapters maximum (batches adapters maximum) := by
  rintro ⟨key, hkey, hnew⟩
  obtain ⟨candidate, hcandidate, rfl⟩ := List.mem_map.mp hkey
  obtain ⟨adapter, hadapter, hwindow⟩ := List.mem_flatMap.mp hcandidate
  obtain ⟨earlier, hlt, hshown⟩ := exists_window ((batches_le_iff hmaximum).mp (le_refl _) adapter
    hadapter) (mem_of_mem_window hwindow)
  exact hnew earlier hlt (List.mem_map.mpr
    ⟨candidate, List.mem_flatMap.mpr ⟨adapter, hadapter, hshown⟩, rfl⟩)

instance (pass : Nat) : Decidable (ShowsNew adapters maximum pass) :=
  inferInstanceAs (Decidable (∃ key ∈ keysAt adapters maximum pass,
    ∀ earlier < pass, key ∉ keysAt adapters maximum earlier))

theorem exists_stale (adapters : List Adapter) (hmaximum : 0 < maximum) :
    ∃ pass, ¬ShowsNew adapters maximum pass := ⟨_, not_showsNew_batches hmaximum⟩

/-- The last pass: the first that shows nothing new. -/
def lastPass (adapters : List Adapter) (hmaximum : 0 < maximum) : Nat :=
  Nat.find (exists_stale adapters hmaximum)

theorem lastPass_le (hmaximum : 0 < maximum) :
    lastPass adapters hmaximum ≤ batches adapters maximum :=
  Nat.find_min' _ (not_showsNew_batches hmaximum)

/-- Every batch is reached exactly when each pass before the last batch shows
something new. -/
theorem batches_le_succ_lastPass (hmaximum : 0 < maximum) :
    batches adapters maximum ≤ lastPass adapters hmaximum + 1 ↔
      ∀ pass, pass + 1 < batches adapters maximum → ShowsNew adapters maximum pass := by
  constructor
  · intro hle pass hpass
    exact not_not.mp (Nat.find_min (exists_stale adapters hmaximum)
      (show pass < lastPass adapters hmaximum by omega))
  · intro hall
    by_contra hlt
    exact Nat.find_spec (exists_stale adapters hmaximum) (hall _ (Nat.not_le.mp hlt))

/-- The candidates of the passes that are made, in order. -/
def allAttempts (adapters : List Adapter) (hmaximum : 0 < maximum) : List Candidate :=
  (List.range' 0 (lastPass adapters hmaximum + 1)).flatMap (passAt adapters maximum)

/-! ## What the passes do -/

section
variable {σ : Type} {repository : Repository σ} {retryAttempts : Nat}

theorem discover_advanced (pass : Nat) (adapter : Adapter) :
    (advanced maximum pass adapter).discover maximum =
      (windowAt maximum pass adapter, advanced maximum (pass + 1) adapter) := rfl

/-- A pass scans the windows of the adapters one after the other. -/
theorem runOnce_advanced {pass : Nat} {s s' : σ} {report : PassReport} {later : List Adapter}
    (h : runOnce repository retryAttempts maximum (adapters.map (advanced maximum pass)) s =
      .ok (report, later, s')) :
    report.map (List.map Prod.fst) = adapters.map (windowAt maximum pass) ∧
      later = adapters.map (advanced maximum (pass + 1)) ∧
      scan repository retryAttempts s (passAt adapters maximum pass) = .ok (report.flatten, s') := by
  induction adapters generalizing s report later with
  | nil =>
    cases h
    exact ⟨rfl, rfl, rfl⟩
  | cons adapter adapters ih =>
    rw [List.map_cons, runOnce, discover_advanced] at h
    obtain ⟨⟨outcomes, t⟩, hscan, h⟩ := bind_eq_ok.mp h
    obtain ⟨⟨reports, rest, t'⟩, hrest, h⟩ := bind_eq_ok.mp h
    cases pure_eq_ok.mp h
    obtain ⟨hwindows, hlater, hall⟩ := ih hrest
    refine ⟨?_, ?_, ?_⟩
    · rw [List.map_cons, List.map_cons, hwindows, scan_candidates hscan]
    · rw [List.map_cons, hlater]
    · rw [passAt, List.flatMap_cons, scan_append, hscan, ok_bind]
      show (scan repository retryAttempts t (passAt adapters maximum pass) >>= _) = _
      rw [hall, ok_bind, List.flatten_cons]
      rfl

theorem runOnce_of_scan {pass : Nat} {s s' : σ} {outcomes : List (Candidate × Outcome)}
    (h : scan repository retryAttempts s (passAt adapters maximum pass) = .ok (outcomes, s')) :
    ∃ report, runOnce repository retryAttempts maximum (adapters.map (advanced maximum pass)) s =
      .ok (report, adapters.map (advanced maximum (pass + 1)), s') := by
  induction adapters generalizing s outcomes with
  | nil =>
    cases h
    exact ⟨[], rfl⟩
  | cons adapter adapters ih =>
    rw [passAt, List.flatMap_cons, scan_append] at h
    obtain ⟨⟨first, t⟩, hfirst, h⟩ := bind_eq_ok.mp h
    obtain ⟨⟨later, t'⟩, hlater, h⟩ := bind_eq_ok.mp h
    cases pure_eq_ok.mp h
    obtain ⟨report, hreport⟩ := ih hlater
    refine ⟨first :: report, ?_⟩
    rw [List.map_cons, runOnce, discover_advanced]
    exact bind_eq_ok.mpr ⟨_, hfirst, bind_eq_ok.mpr ⟨_, hreport, rfl⟩⟩

/-- The keys that were seen are those of the passes before. -/
def SeenBefore (adapters : List Adapter) (maximum pass : Nat) (seen : List String) : Prop :=
  ∀ key, key ∈ seen ↔ ∃ earlier < pass, key ∈ keysAt adapters maximum earlier

theorem candidateKeys_report {pass : Nat} {report : PassReport}
    (h : report.map (List.map Prod.fst) = adapters.map (windowAt maximum pass)) :
    candidateKeys report = keysAt adapters maximum pass := by
  have hflat : report.flatten.map Prod.fst = passAt adapters maximum pass := by
    rw [List.map_flatten, h, passAt, List.flatMap_def]
  rw [candidateKeys, keysAt, ← hflat, List.map_map]
  rfl

theorem isEmpty_newlySeen {pass : Nat} {seen : List String}
    (hseen : SeenBefore adapters maximum pass seen) :
    ((keysAt adapters maximum pass).filter fun key => !seen.contains key).isEmpty = true ↔
      ¬ShowsNew adapters maximum pass := by
  simp only [List.isEmpty_iff, List.filter_eq_nil_iff, Bool.not_eq_true', Bool.not_eq_false,
    List.contains_iff_mem, hseen _, ShowsNew, not_exists, not_and, not_forall, not_not, exists_prop]

theorem SeenBefore.next {pass : Nat} {seen : List String}
    (hseen : SeenBefore adapters maximum pass seen) :
    SeenBefore adapters maximum (pass + 1) (seen ++
      (keysAt adapters maximum pass).filter fun key => !seen.contains key) := by
  intro key
  rw [List.mem_append, List.mem_filter]
  constructor
  · rintro (hkey | ⟨hkey, -⟩)
    · obtain ⟨earlier, hlt, hkey⟩ := (hseen key).mp hkey
      exact ⟨earlier, Nat.lt_succ_of_lt hlt, hkey⟩
    · exact ⟨pass, Nat.lt_succ_self pass, hkey⟩
  · rintro ⟨earlier, hlt, hkey⟩
    by_cases hold : key ∈ seen
    · exact Or.inl hold
    · rcases Nat.lt_succ_iff_lt_or_eq.mp hlt with hlt | rfl
      · exact Or.inl ((hseen key).mpr ⟨earlier, hlt, hkey⟩)
      · exact Or.inr ⟨hkey, by simp [hold]⟩

/-- A pass that shows nothing new is the last. -/
theorem drain_last {passes pass : Nat} {seen : List String} {s : σ}
    (hseen : SeenBefore adapters maximum pass seen) (h : ¬ShowsNew adapters maximum pass) :
    drain repository retryAttempts maximum (passes + 1) seen
        (adapters.map (advanced maximum pass)) s = do
      let (report, _, _) ←
        runOnce repository retryAttempts maximum (adapters.map (advanced maximum pass)) s
      return ([report], false) := by
  rw [drain]
  cases hrun : runOnce repository retryAttempts maximum (adapters.map (advanced maximum pass)) s with
  | error name => rfl
  | ok result =>
    obtain ⟨report, later, t⟩ := result
    obtain ⟨hwindows, -, -⟩ := runOnce_advanced hrun
    simp only [ok_bind, candidateKeys_report hwindows]
    rw [if_pos ((isEmpty_newlySeen hseen).mpr h)]

/-- A pass that shows something new is followed by another. -/
theorem drain_next {passes pass : Nat} {seen : List String} {s : σ}
    (hseen : SeenBefore adapters maximum pass seen) (h : ShowsNew adapters maximum pass) :
    drain repository retryAttempts maximum (passes + 1) seen
        (adapters.map (advanced maximum pass)) s = do
      let (report, _, s) ←
        runOnce repository retryAttempts maximum (adapters.map (advanced maximum pass)) s
      let (later, reached) ← drain repository retryAttempts maximum passes
        (seen ++ (keysAt adapters maximum pass).filter fun key => !seen.contains key)
        (adapters.map (advanced maximum (pass + 1))) s
      return (report :: later, reached) := by
  rw [drain]
  cases hrun : runOnce repository retryAttempts maximum (adapters.map (advanced maximum pass)) s with
  | error name => rfl
  | ok result =>
    obtain ⟨report, later, t⟩ := result
    obtain ⟨hwindows, rfl, -⟩ := runOnce_advanced hrun
    simp only [ok_bind, candidateKeys_report hwindows]
    rw [if_neg (mt (isEmpty_newlySeen hseen).mp (not_not.mpr h))]

/-- What a pass that returns shows. -/
theorem showsNew_iff_lt (hmaximum : 0 < maximum) {pass : Nat}
    (hpass : pass ≤ lastPass adapters hmaximum) :
    ShowsNew adapters maximum pass ↔ pass < lastPass adapters hmaximum := by
  constructor
  · intro hnew
    refine Nat.lt_of_le_of_ne hpass fun heq => ?_
    rw [heq] at hnew
    exact Nat.find_spec (exists_stale adapters hmaximum) hnew
  · exact fun hlt => not_not.mp (Nat.find_min (exists_stale adapters hmaximum) hlt)

/-- The loop returns exactly when the passes it makes do. -/
theorem returns_drain (hmaximum : 0 < maximum) {left passes pass : Nat} {seen : List String} {s : σ}
    (hlast : pass + left = lastPass adapters hmaximum) (hpasses : left < passes)
    (hseen : SeenBefore adapters maximum pass seen) :
    Returns (drain repository retryAttempts maximum passes seen
        (adapters.map (advanced maximum pass)) s) ↔
      Returns (scan repository retryAttempts s
        ((List.range' pass (left + 1)).flatMap (passAt adapters maximum))) := by
  induction left generalizing passes pass seen s with
  | zero =>
    obtain ⟨passes, rfl⟩ : ∃ k, passes = k + 1 := ⟨passes - 1, by omega⟩
    rw [drain_last hseen ((showsNew_iff_lt hmaximum (by omega)).not.mpr (by omega)), returns_bind]
    have hone : (List.range' pass (0 + 1)).flatMap (passAt adapters maximum) =
        passAt adapters maximum pass := by
      rw [Nat.zero_add, List.range'_one, List.flatMap_singleton]
    rw [hone]
    simp only [returns_pure, and_true]
    constructor
    · rintro ⟨⟨report, later, t⟩, hrun⟩
      exact ⟨_, (runOnce_advanced hrun).2.2⟩
    · rintro ⟨⟨outcomes, t⟩, hscan⟩
      obtain ⟨report, hrun⟩ := runOnce_of_scan hscan
      exact ⟨_, hrun⟩
  | succ left ih =>
    obtain ⟨passes, rfl⟩ : ∃ k, passes = k + 1 := ⟨passes - 1, by omega⟩
    rw [drain_next hseen ((showsNew_iff_lt hmaximum (by omega)).mpr (by omega)), List.range'_succ, List.flatMap_cons, scan_append, returns_bind, returns_bind]
    have hlater : ∀ t, Returns (drain repository retryAttempts maximum passes
        (seen ++ (keysAt adapters maximum pass).filter fun key => !seen.contains key)
        (adapters.map (advanced maximum (pass + 1))) t) ↔
        Returns (scan repository retryAttempts t
          ((List.range' (pass + 1) (left + 1)).flatMap (passAt adapters maximum))) :=
      fun t => ih (by omega) (by omega) hseen.next
    constructor
    · rintro ⟨⟨report, later, t⟩, hrun, hrest⟩
      obtain ⟨result, hdrain, -⟩ := returns_bind.mp hrest
      obtain ⟨⟨outcomes, t'⟩, hscan⟩ := (hlater t).mp ⟨result, hdrain⟩
      exact ⟨_, (runOnce_advanced hrun).2.2, returns_bind.mpr ⟨_, hscan, returns_pure _⟩⟩
    · rintro ⟨⟨outcomes, t⟩, hscan, hrest⟩
      obtain ⟨result, hscan', -⟩ := returns_bind.mp hrest
      obtain ⟨report, hrun⟩ := runOnce_of_scan hscan
      obtain ⟨⟨reports, reached⟩, hdrain⟩ := (hlater t).mpr ⟨result, hscan'⟩
      exact ⟨_, hrun, returns_bind.mpr ⟨_, hdrain, returns_pure _⟩⟩

/-- The passes that were made, with the windows each showed. -/
theorem drain_windows (hmaximum : 0 < maximum) {left passes pass : Nat} {seen : List String} {s : σ}
    {reports : List PassReport} {reached : Bool}
    (hlast : pass + left = lastPass adapters hmaximum) (hpasses : left < passes)
    (hseen : SeenBefore adapters maximum pass seen)
    (h : drain repository retryAttempts maximum passes seen
      (adapters.map (advanced maximum pass)) s = .ok (reports, reached)) :
    reached = false ∧ reports.map (List.map (List.map Prod.fst)) =
      (List.range' pass (left + 1)).map fun p => adapters.map (windowAt maximum p) := by
  induction left generalizing passes pass seen s reports with
  | zero =>
    obtain ⟨passes, rfl⟩ : ∃ k, passes = k + 1 := ⟨passes - 1, by omega⟩
    rw [drain_last hseen ((showsNew_iff_lt hmaximum (by omega)).not.mpr (by omega))] at h
    obtain ⟨⟨report, later, t⟩, hrun, h⟩ := bind_eq_ok.mp h
    cases pure_eq_ok.mp h
    refine ⟨rfl, ?_⟩
    rw [List.map_singleton, (runOnce_advanced hrun).1, List.range'_one, List.map_singleton]
  | succ left ih =>
    obtain ⟨passes, rfl⟩ : ∃ k, passes = k + 1 := ⟨passes - 1, by omega⟩
    rw [drain_next hseen ((showsNew_iff_lt hmaximum (by omega)).mpr (by omega))] at h
    obtain ⟨⟨report, later, t⟩, hrun, h⟩ := bind_eq_ok.mp h
    obtain ⟨⟨rest, reached'⟩, hdrain, h⟩ := bind_eq_ok.mp h
    cases pure_eq_ok.mp h
    obtain ⟨hreached, hrest⟩ := ih (by omega) (by omega) hseen.next hdrain
    refine ⟨hreached, ?_⟩
    rw [List.range'_succ, List.map_cons, List.map_cons, (runOnce_advanced hrun).1, hrest]

/-! ## When the import drains its sources -/

theorem map_advanced_zero : adapters.map (advanced maximum 0) = adapters :=
  List.map_congr_left (fun _ _ => rfl) |>.trans (List.map_id _)

theorem passes_fit (hmaximum : 0 < maximum) {maximumPasses : Nat}
    (hpasses : batches adapters maximum < maximumPasses) :
    lastPass adapters hmaximum < maximumPasses :=
  Nat.lt_of_le_of_lt (lastPass_le hmaximum) hpasses

theorem run_eq_drain (hmaximum : 0 < maximum) {maximumPasses : Nat} (hpasses : 0 < maximumPasses)
    (s : σ) : run repository retryAttempts maximum maximumPasses adapters s =
      drain repository retryAttempts maximum maximumPasses []
        (adapters.map (advanced maximum 0)) s := by
  have hbounds : raiseIf (maximum < 1 ∨ maximumPasses < 1)
      "ValueError: historical import bounds must be positive" = .ok () :=
    raiseIf_eq_ok.mpr (by omega)
  rw [run, hbounds, ok_bind, map_advanced_zero]

theorem seenBefore_nil : SeenBefore adapters maximum 0 [] := fun _ =>
  iff_of_false List.not_mem_nil fun ⟨_, hlt, _⟩ => Nat.not_lt_zero _ hlt

/-- A run that returns attempts each adapter's window of each pass. -/
theorem run_attempted (hmaximum : 0 < maximum) {maximumPasses : Nat}
    (hpasses : batches adapters maximum < maximumPasses) {s : σ} {reports : List PassReport}
    {reached : Bool}
    (h : run repository retryAttempts maximum maximumPasses adapters s = .ok (reports, reached))
    {i : Nat} {adapter : Adapter} (hadapter : adapters[i]? = some adapter) (candidate : Candidate) :
    (∃ report ∈ reports, ∃ outcomes : List (Candidate × Outcome), report[i]? = some outcomes ∧
        candidate ∈ outcomes.map Prod.fst) ↔
      ∃ pass < lastPass adapters hmaximum + 1, candidate ∈ windowAt maximum pass adapter := by
  rw [run_eq_drain hmaximum (by omega)] at h
  have hwindows := (drain_windows hmaximum (Nat.zero_add _) (passes_fit hmaximum hpasses)
    seenBefore_nil h).2
  have hreport : ∀ windows : List (List Candidate),
      (∃ report ∈ reports, report.map (List.map Prod.fst) = windows) ↔
        ∃ pass < lastPass adapters hmaximum + 1, adapters.map (windowAt maximum pass) = windows := by
    intro windows
    have hmem := congrArg (windows ∈ ·) hwindows
    simpa [List.mem_map, List.mem_range'_1] using hmem
  constructor
  · rintro ⟨report, hmem, outcomes, houtcomes, hcandidate⟩
    obtain ⟨pass, hpass, heq⟩ := (hreport _).mp ⟨report, hmem, rfl⟩
    refine ⟨pass, hpass, ?_⟩
    have hget := congrArg (fun windows => windows[i]?) heq
    simp only [List.getElem?_map, hadapter, houtcomes, Option.map_some, Option.some.injEq] at hget
    rwa [hget]
  · rintro ⟨pass, hpass, hcandidate⟩
    obtain ⟨report, hmem, heq⟩ := (hreport _).mpr ⟨pass, hpass, rfl⟩
    have hget := congrArg (fun windows => windows[i]?) heq
    simp only [List.getElem?_map, hadapter, Option.map_some, Option.map_eq_some_iff] at hget
    obtain ⟨outcomes, houtcomes, hwindow⟩ := hget
    exact ⟨report, hmem, outcomes, houtcomes, hwindow ▸ hcandidate⟩

/-- The import drains its sources exactly when no candidate it comes to raises
what the worker does not handle, and each pass before the last batch shows a key
for the first time. -/
theorem drains_iff (hmaximum : 0 < maximum) {maximumPasses : Nat}
    (hpasses : batches adapters maximum < maximumPasses) {s : σ} :
    Drains repository retryAttempts maximum maximumPasses adapters s ↔
      (∀ pass, pass + 1 < batches adapters maximum → ShowsNew adapters maximum pass) ∧
        EveryTurn repository retryAttempts (Unraised repository retryAttempts) s
          (allAttempts adapters hmaximum) := by
  rw [← batches_le_succ_lastPass hmaximum, ← returns_scan, allAttempts,
    ← returns_drain hmaximum (Nat.zero_add _) (passes_fit hmaximum hpasses) seenBefore_nil,
    ← run_eq_drain hmaximum (by omega), batches_le_iff hmaximum]
  have hcover : ∀ adapter : Adapter,
      (∀ candidate ∈ adapter.candidates,
        ∃ pass < lastPass adapters hmaximum + 1, candidate ∈ windowAt maximum pass adapter) ↔
      adapter.candidates.length ≤ (lastPass adapters hmaximum + 1) * maximum :=
    fun adapter => windows_cover adapter.nodup hmaximum
  constructor
  · rintro ⟨reports, hrun, hall⟩
    refine ⟨fun adapter hadapter => (hcover adapter).mp fun candidate hcandidate => ?_, _, hrun⟩
    obtain ⟨i, hi⟩ := List.mem_iff_getElem?.mp hadapter
    exact (run_attempted hmaximum hpasses hrun hi candidate).mp (hall i adapter hi candidate hcandidate)
  · rintro ⟨hlong, ⟨reports, reached⟩, hrun⟩
    have hreached : reached = false := by
      have hdrain := hrun
      rw [run_eq_drain hmaximum (by omega)] at hdrain
      exact (drain_windows hmaximum (Nat.zero_add _) (passes_fit hmaximum hpasses) seenBefore_nil
        hdrain).1
    rw [hreached] at hrun
    refine ⟨reports, hrun, fun i adapter hi candidate hcandidate => ?_⟩
    exact (run_attempted hmaximum hpasses hrun hi candidate).mpr
      ((hcover adapter).mpr (hlong adapter (List.mem_of_getElem? hi)) candidate hcandidate)

end

/-- Keys that are all different are new as long as there are batches left. -/
theorem showsNew_of_distinct (hmaximum : 0 < maximum)
    (hkeys : ((adapters.flatMap Adapter.candidates).map Candidate.candidateKey).Nodup) {pass : Nat}
    (hpass : pass + 1 < batches adapters maximum) : ShowsNew adapters maximum pass := by
  have hlong : ¬∀ adapter ∈ adapters, adapter.candidates.length ≤ (pass + 1) * maximum :=
    mt (batches_le_iff hmaximum).mpr (Nat.not_le.mpr hpass)
  simp only [not_forall, exists_prop, Nat.not_le] at hlong
  obtain ⟨adapter, hadapter, hlength⟩ := hlong
  rw [Nat.succ_mul] at hlength
  obtain ⟨candidate, hcandidate, hnew⟩ := @exists_new _ adapter.candidates maximum
    adapter.discoveryCursor adapter.nodup hmaximum pass (by omega)
  have hmem := mem_of_mem_window hcandidate
  refine ⟨candidate.candidateKey, List.mem_map.mpr
    ⟨candidate, List.mem_flatMap.mpr ⟨adapter, hadapter, hcandidate⟩, rfl⟩, fun earlier hlt hold => ?_⟩
  obtain ⟨other, hother, hkey⟩ := List.mem_map.mp hold
  obtain ⟨source, hsource, hwindow⟩ := List.mem_flatMap.mp hother
  obtain rfl : other = candidate := List.inj_on_of_nodup_map hkeys
    (List.mem_flatMap.mpr ⟨source, hsource, mem_of_mem_window hwindow⟩)
    (List.mem_flatMap.mpr ⟨adapter, hadapter, hmem⟩) hkey
  -- a candidate of two adapters would be a key that is there twice
  by_cases hsame : source = adapter
  · exact hnew earlier hlt (hsame ▸ hwindow)
  · have hdisjoint := (List.nodup_flatMap.mp (List.Nodup.of_map _ hkeys)).2
    have : Std.Symm (Function.onFun List.Disjoint Adapter.candidates) := ⟨fun _ _ h => h.symm⟩
    exact hdisjoint.forall hsource hadapter hsame (mem_of_mem_window hwindow) hmem

/-! ## A copied route -/

/-- A receipt as an adapter loads it. -/
def receipt : NormalizedEnvelope where
  sourceKey := "printproxy-v3:cucina:4b0e8f3c-2a43-4a0e-9b35-0a6c5f1f9f11:a1:b2"
  sourceKind := .printproxyV3
  sourceInstanceId := "cucina"
  deviceId := "pos_1"
  sourceJobId := "4b0e8f3c-2a43-4a0e-9b35-0a6c5f1f9f11"
  sourceSessionId := none
  connectionId := none
  openedAt := 0
  closedAt := none
  sourceEndpoint := none
  proxyEndpoint := some ⟨"192.168.1.10", 9100⟩
  deviceEndpoint := ⟨"192.168.1.50", 9100⟩
  status := "SEALED"
  complete := true
  boundarySource := none
  boundaryConfidence := none
  deliveryEvidence := none
  manifestSha256 := "a1"
  parserVersion := none
  artifacts := []
  chunks := []
  documents := []
  metadata := .obj []

/-- One job of a ledger, and where the ledger is. -/
def ledgerJob (route key : String) : Candidate where
  candidateKey := "printproxy-v3:cucina:" ++ key
  sourcePath := route
  load := .ok receipt

/-- The ledger of a route, a copy of it, and another ledger. -/
def copiedRoute : Adapter where
  candidates := [ledgerJob "cucina" "4b0e8f3c-2a43-4a0e-9b35-0a6c5f1f9f11:a1:b2",
    ledgerJob "cucina-backup" "4b0e8f3c-2a43-4a0e-9b35-0a6c5f1f9f11:a1:b2",
    ledgerJob "sala" "9c1d7a52-6f0b-4f7e-8a11-d2c0a9b3e471:c3:d4"]
  discoveryCursor := 0
  nodup := by
    refine List.Nodup.of_map Candidate.sourcePath ?_
    decide

/-- A repository that is always there and takes everything. -/
def validation : Repository Unit where
  storeImport _ s := (.stored .imported, s)
  quarantine _ s := (true, s)

/-- With one candidate a pass the second pass shows only the copy, and the third
is not made. -/
theorem copied_route_ends_import : ¬Drains validation 5 1 10 [copiedRoute] () := by
  rintro ⟨reports, hrun, hall⟩
  have hreports : [[[(ledgerJob "cucina" "4b0e8f3c-2a43-4a0e-9b35-0a6c5f1f9f11:a1:b2", .imported)]],
      [[(ledgerJob "cucina-backup" "4b0e8f3c-2a43-4a0e-9b35-0a6c5f1f9f11:a1:b2", .imported)]]] =
      reports := congrArg Prod.fst (Except.ok.inj hrun)
  obtain ⟨report, hreport, outcomes, houtcomes, hlast⟩ := hall 0 copiedRoute rfl
    (ledgerJob "sala" "9c1d7a52-6f0b-4f7e-8a11-d2c0a9b3e471:c3:d4") (by simp [copiedRoute])
  have hpath : "sala" ∈ (outcomes.map Prod.fst).map Candidate.sourcePath :=
    List.mem_map.mpr ⟨_, hlast, rfl⟩
  rw [← hreports] at hreport
  rcases List.mem_pair.mp hreport with rfl | rfl <;>
    (cases Option.some.inj houtcomes; revert hpath; decide)

/-- Two candidates with keys of their own. -/
def separateRoutes : Adapter where
  candidates := [ledgerJob "cucina" "4b0e8f3c-2a43-4a0e-9b35-0a6c5f1f9f11:a1:b2",
    ledgerJob "sala" "9c1d7a52-6f0b-4f7e-8a11-d2c0a9b3e471:c3:d4"]
  discoveryCursor := 0
  nodup := by
    refine List.Nodup.of_map Candidate.sourcePath ?_
    decide

theorem separateRoutes_drain : Drains validation 5 1 3 [separateRoutes] () := by
  have hstored : ∀ candidate ∈ separateRoutes.candidates, Unraised validation 5 () candidate := by
    intro candidate hcandidate
    have hload : candidate.load = .ok receipt := by
      rcases List.mem_pair.mp hcandidate with rfl | rfl <;> rfl
    refine ⟨fun name h => (by cases hload.symm.trans h), fun envelope _ => returns_ok _⟩
  refine (drains_iff (by decide) (by decide)).mpr
    ⟨fun pass hpass => showsNew_of_distinct (by decide) (by decide) hpass, ?_⟩
  have hevery : ∀ candidates : List Candidate,
      (∀ candidate ∈ candidates, candidate ∈ separateRoutes.candidates) →
        EveryTurn validation 5 (Unraised validation 5) () candidates := by
    intro candidates hall
    induction candidates with
    | nil => trivial
    | cons candidate rest ih =>
      rw [List.forall_mem_cons] at hall
      exact ⟨hstored candidate hall.1, fun _ _ _ => ih hall.2⟩
  refine hevery _ fun candidate hcandidate => ?_
  obtain ⟨pass, -, hpass⟩ := List.mem_flatMap.mp hcandidate
  obtain ⟨adapter, hadapter, hwindow⟩ := List.mem_flatMap.mp hpass
  rw [List.mem_singleton.mp hadapter] at hwindow
  exact mem_of_mem_window hwindow

end RetailPrintGuard.Importer.Historical
