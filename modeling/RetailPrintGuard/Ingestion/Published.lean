import RetailPrintGuard.Ingestion.Indexing

/-! # Published jobs are discovered

A job that is ready when a refresh begins is in the index when it ends, unless
the refresh records an mtime that is newer than what its scan has seen. -/
namespace RetailPrintGuard.Ingestion.Published
open RetailPrintGuard.Library.Runs RetailPrintGuard.Ingestion.Discovery
open RetailPrintGuard.Ingestion.Indexing

/-- The scan just finished has seen every renamed job of the device. -/
def SafeRecord (s : State) : Phase → Prop
  | .recordMtime device _ => AllKnown s device
  | _ => True

/-- A name the scan yields is still there when it is resolved. -/
def SafeList (s : State) (job : JobDir) : Phase → Prop
  | .scanDevice scan _ => job ∈ scan.possible → job ∉ scan.listed → job ∈ s.spool.entries
  | _ => True

/-- No rename slips between a scan and the mtime recorded after it, nor between
the listing of a name and its resolution. -/
def Unraced (s : State) : Action → Prop
  | .advance => SafeRecord s s.phase
  | .listJob job => SafeList s job s.phase
  | _ => True

instance (index : DiscoveryIndex) (dir : JobDir) : Decidable (Known index dir) :=
  inferInstanceAs (Decidable (_ ∨ _))

instance (s : State) (device : String) : Decidable (AllKnown s device) :=
  inferInstanceAs (Decidable (∀ dir ∈ s.spool.entries, dir.device = device →
    dir.name.isFinal = true → Known s.index dir))

instance (s : State) (phase : Phase) : Decidable (SafeRecord s phase) :=
  match phase with
  | .recordMtime device _ => inferInstanceAs (Decidable (AllKnown s device))
  | .idle | .openRoot _ | .rootScan _ _ _ | .devices _ | .openDevice _ _ | .scanDevice _ _
  | .unready _ => isTrue trivial

instance (s : State) (job : JobDir) (phase : Phase) : Decidable (SafeList s job phase) :=
  match phase with
  | .scanDevice scan _ =>
    inferInstanceAs (Decidable
      (job ∈ scan.possible → job ∉ scan.listed → job ∈ s.spool.entries))
  | .idle | .openRoot _ | .rootScan _ _ _ | .devices _ | .openDevice _ _ | .recordMtime _ _
  | .unready _ => isTrue trivial

instance (s : State) : (a : Action) → Decidable (Unraced s a)
  | .advance => inferInstanceAs (Decidable (SafeRecord s s.phase))
  | .listJob job => inferInstanceAs (Decidable (SafeList s job s.phase))
  | .makeDevice _ _ | .makePartial _ _ _ | .rename _ _ _ | .publishReady _ _ | .listDevice _ =>
    isTrue trivial

/-! ## Every step keeps the invariant -/

theorem Invariant.advance {s : State} (h : Invariant s) (hok : Unraced s .advance) :
    Invariant (advance s) := by
  have hp := h.phase
  unfold PhaseInvariant at hp
  unfold Discovery.advance
  cases hphase : s.phase with
  | idle =>
    dsimp only
    split
    · exact h.rephase s.refreshes (Nat.le_refl _)
    · exact h.rephase s.refreshes ⟨fun _ he => he, h.once⟩
  | openRoot facts =>
    rw [hphase] at hp
    exact h.rephase s.refreshes
      ⟨hp, fun _ _ hd => hd, h.devices, fun _ hd => absurd hd List.not_mem_nil, List.nodup_nil⟩
  | rootScan facts begun discovered =>
    dsimp only
    split
    · next hdone => exact h.rootScanned hphase hdone
    · exact h
  | devices todo =>
    rw [hphase] at hp
    cases todo with
    | nil => exact h.rephase s.refreshes trivial
    | cons entry todo =>
      obtain ⟨device, previousMtime⟩ := entry
      have hnodup := List.nodup_cons.mp hp.once
      have hahead : Ahead s.index todo :=
        ⟨fun e he => hp.recorded e (List.mem_cons_of_mem _ he), hnodup.2⟩
      have hmem := hp.recorded _ List.mem_cons_self
      dsimp only
      split
      · next hstale =>
        refine h.rephase s.refreshes ⟨hahead, hnodup.1, fun mtime hm => ?_⟩
        -- the device has one entry
        have heq : (device, mtime) = (device, previousMtime) :=
          List.inj_on_of_nodup_map h.once hm hmem rfl
        have hle := h.mtime _ hmem
        have hne := hstale.2
        cases heq
        show previousMtime < (s.spool.deviceMtime device : Int)
        simp only at hle
        omega
      · exact h.rephase s.refreshes hahead
  | openDevice device todo =>
    rw [hphase] at hp
    refine h.rephase s.refreshes ⟨hp, ?_, ?_, ?_, ?_, ?_⟩
    · intro dir hdir
      simpa using (List.mem_filter.mp hdir).2
    · intro dir hfinal hdevice hk
      exact List.mem_filter.mpr ⟨h.known dir hfinal hk, by simpa using hdevice⟩
    all_goals exact fun _ hd => absurd hd List.not_mem_nil
  | scanDevice scan todo =>
    dsimp only
    split
    · exact h.deviceScanned hphase
    · exact h
  | recordMtime device todo =>
    have hsafe : SafeRecord s s.phase := hok
    rw [hphase] at hsafe
    exact h.recorded hphase hsafe
  | unready todo =>
    cases todo with
    | nil => exact h.rephase (s.refreshes + 1) trivial
    | cons job todo => exact h.rechecked job

theorem Invariant.listDevice {s : State} (h : Invariant s) (device : String) :
    Invariant (listDevice s device) := by
  have hp := h.phase
  unfold PhaseInvariant at hp
  unfold Discovery.listDevice
  cases hphase : s.phase with
  | rootScan facts begun discovered =>
    rw [hphase] at hp
    obtain ⟨hfacts, hbegun, hkeys, hdiscovered, hnodup⟩ := hp
    dsimp only
    split
    · next hnew =>
      refine h.rephase s.refreshes
        ⟨hfacts, hbegun, hkeys, fun d hd => ?_, List.nodup_cons.mpr ⟨hnew.2, hnodup⟩⟩
      rcases List.mem_cons.mp hd with rfl | hd
      · exact hnew.1
      · exact hdiscovered d hd
    · exact h
  | _ => exact h

theorem Invariant.listJob {s : State} (h : Invariant s) (job : JobDir) :
    Invariant (listJob s job) := by
  have hp := h.phase
  unfold PhaseInvariant at hp
  unfold Discovery.listJob
  cases hphase : s.phase with
  | scanDevice scan todo =>
    rw [hphase] at hp
    dsimp only
    split
    · next hnew =>
      split
      · next hjob =>
        refine h.rephase s.refreshes ⟨?_, Scanned.list h hp.2 hnew.1 hjob⟩
        have hdevice : (scan.list s.spool job).device = scan.device := by
          unfold DeviceScan.list
          split <;> rfl
        rw [hdevice]
        exact hp.1
      · exact h.rephase (s.refreshes + 1) trivial
    · exact h
  | _ => exact h

theorem invariant_step {s : State} {a : Action} (hok : Unraced s a) (h : Invariant s) :
    Invariant (step s a) := by
  cases a with
  | makeDevice device tick => exact h.grow (grows_makeDevice _ _ _)
  | makePartial device job tick => exact (h.grow (grows_makePartial _ _ _ _)).notice _
  | rename device job tick => exact (h.grow (grows_rename _ _ _ _)).notice _
  | publishReady device job => exact h.grow (grows_publishReady _ _ _)
  | advance => exact Invariant.advance h hok
  | listDevice device => exact Invariant.listDevice h device
  | listJob job => exact Invariant.listJob h job

/-! ## What a refresh owes a ready job -/

def Found (dir : JobDir) (s : State) : Prop := dir ∈ s.index.markersByDevice dir.device

/-- By the stage of a refresh that began when the job was ready: its device is
among those still to be looked at, or the job is in the index already. -/
def Due (dir : JobDir) (s : State) : Prop :=
  match s.phase with
  | .idle | .openRoot _ => True
  | .rootScan _ begun _ => dir.device ∈ begun
  | .devices todo => Known s.index dir ∨ dir.device ∈ todo.map Prod.fst
  | .openDevice device todo =>
    Known s.index dir ∨ dir.device = device ∨ dir.device ∈ todo.map Prod.fst
  | .scanDevice scan todo =>
    (dir.device = scan.device → dir ∈ scan.begun) ∧
      (dir.device ≠ scan.device → Known s.index dir ∨ dir.device ∈ todo.map Prod.fst)
  | .recordMtime _ todo => Known s.index dir ∨ dir.device ∈ todo.map Prod.fst
  | .unready todo => Found dir s ∨ (dir ∈ s.index.unreadyJobs ∧ dir ∈ todo)

section
variable {s : State} {dir : JobDir}

/-- What a scan must list, it knows by its end: a ready job it lists as ready. -/
theorem listed_of_begun (h : Invariant s) {scan : DeviceScan} {todo : List (String × Int)}
    (hphase : s.phase = .scanDevice scan todo)
    (hdone : ∀ job ∈ scan.begun, job ∈ s.spool.entries → job ∈ scan.listed)
    (hready : dir ∈ s.spool.ready) (hbegun : dir ∈ scan.begun) :
    dir ∈ scan.currentMarkers ∨ dir ∈ scan.currentUnready := by
  have hp := h.phase
  unfold PhaseInvariant at hp
  rw [hphase] at hp
  exact hp.2.listed dir (hdone dir hbegun (s.spool.renamed dir hready).1)

/-- What is in the index stays there. -/
theorem found_advance (h : Invariant s) (hf : Found dir s) : Found dir (advance s) := by
  obtain ⟨hready, -⟩ := h.marked _ _ hf
  have hfinal := (s.spool.renamed dir hready).2
  have hp := h.phase
  unfold PhaseInvariant at hp
  unfold Discovery.advance
  cases hphase : s.phase with
  | idle => dsimp only; split <;> exact hf
  | openRoot facts => exact hf
  | rootScan facts begun discovered =>
    rw [hphase] at hp
    dsimp only
    split
    · next hdone =>
      show dir ∈ (s.index.rootScanned facts discovered).markersByDevice dir.device
      rw [rootScanned_eq facts fun device hd => hdone device (hp.2.2.1 device hd)]
      exact hf
    · exact hf
  | devices todo =>
    cases todo with
    | nil => exact hf
    | cons entry todo => dsimp only; split <;> exact hf
  | openDevice device todo => exact hf
  | scanDevice scan todo =>
    rw [hphase] at hp
    dsimp only
    split
    · next hdone =>
      show dir ∈ if dir.device = scan.device then scan.currentMarkers
        else s.index.markersByDevice dir.device
      split
      · next hdevice =>
        have hbegun := hp.2.begun dir hfinal hdevice (Or.inl hf)
        rcases listed_of_begun h hphase hdone hready hbegun with hm | hu
        · exact hm
        · exact absurd (hdevice ▸ hf) (hp.2.unready dir hu).2.2
      · exact hf
    · exact hf
  | recordMtime device todo => exact hf
  | unready todo =>
    cases todo with
    | nil => exact hf
    | cons job todo =>
      show dir ∈ (s.index.rechecked s.spool job).markersByDevice dir.device
      unfold DiscoveryIndex.rechecked
      split
      · exact hf
      · split
        · dsimp only
          split
          · exact List.mem_cons_of_mem _ hf
          · exact hf
        · exact hf

/-- A refresh ends with what it owes. -/
theorem found_of_due (hdue : Due dir s) (hphase : s.phase = .unready []) : Found dir s := by
  unfold Due at hdue
  rw [hphase] at hdue
  rcases hdue with hf | ⟨-, hn⟩
  · exact hf
  · cases hn

theorem due_advance (h : Invariant s) (hready : dir ∈ s.spool.ready) (hdue : Due dir s) :
    Due dir (advance s) := by
  obtain ⟨hentry, hfinal⟩ := s.spool.renamed dir hready
  have hdevice := s.spool.contained dir hentry
  have hp := h.phase
  unfold PhaseInvariant at hp
  unfold Due at hdue
  unfold Discovery.advance
  cases hphase : s.phase with
  | idle =>
    dsimp only
    split
    · exact trivial
    · next hroot =>
      exact Or.inr (h.rootListed (by simpa using Eq.symm (not_not.mp hroot)) _ hdevice)
  | openRoot facts => exact hdevice
  | rootScan facts begun discovered =>
    rw [hphase] at hp hdue
    dsimp only
    split
    · next hdone =>
      right
      show dir.device ∈ keys (s.index.rootScanned facts discovered)
      rw [keys_rootScanned facts fun device hd => hdone device (hp.2.2.1 device hd),
        List.mem_append, List.mem_filter]
      by_cases hk : dir.device ∈ keys s.index
      · exact Or.inl hk
      · exact Or.inr ⟨hdone _ hdue, by simpa using hk⟩
    · unfold Due
      rw [hphase]
      exact hdue
  | devices todo =>
    rw [hphase] at hp hdue
    cases todo with
    | nil =>
      rcases hdue with (hm | hu) | hn
      · exact Or.inl hm
      · exact Or.inr ⟨hu, hu⟩
      · cases hn
    | cons entry todo =>
      obtain ⟨device, previousMtime⟩ := entry
      dsimp only
      split
      · exact hdue.imp_right List.mem_cons.mp
      · next hsame =>
        rcases hdue with hk | hmem
        · exact Or.inl hk
        · rcases List.mem_cons.mp hmem with heq | hmem
          · -- the recorded mtime is the present one
            have hcurrent : previousMtime = (s.spool.deviceMtime device : Int) := by
              have heq : dir.device = device := heq
              by_contra hne
              exact hsame ⟨heq ▸ hdevice, fun hc => hne hc.symm⟩
            exact Or.inl (h.current _ (hp.recorded _ List.mem_cons_self) hcurrent dir hentry heq
              hfinal)
          · exact Or.inr hmem
  | openDevice device todo =>
    rw [hphase] at hdue
    refine ⟨fun heq => List.mem_filter.mpr ⟨hentry, by simpa using heq⟩, fun hne => ?_⟩
    rcases hdue with hk | heq | hmem
    · exact Or.inl hk
    · exact absurd heq hne
    · exact Or.inr hmem
  | scanDevice scan todo =>
    rw [hphase] at hp hdue
    dsimp only
    split
    · next hdone =>
      by_cases hd : dir.device = scan.device
      · refine Or.inl ((known_deviceScanned hp.2 dir).mpr ?_)
        rw [if_pos hd]
        exact listed_of_begun h hphase hdone hready (hdue.1 hd)
      · refine (hdue.2 hd).imp_left fun hk => (known_deviceScanned hp.2 dir).mpr ?_
        rw [if_neg hd]
        exact hk
    · unfold Due
      rw [hphase]
      exact hdue
  | recordMtime device todo =>
    rw [hphase] at hdue
    exact hdue
  | unready todo =>
    rw [hphase] at hdue
    cases todo with
    | nil => exact trivial
    | cons job todo =>
      show dir ∈ (s.index.rechecked s.spool job).markersByDevice dir.device ∨
        (dir ∈ (s.index.rechecked s.spool job).unreadyJobs ∧ dir ∈ todo)
      unfold DiscoveryIndex.rechecked
      by_cases heq : dir = job
      · rw [← heq, if_neg (not_not.mpr hentry), if_pos hready]
        dsimp only
        rw [if_pos rfl]
        exact Or.inl List.mem_cons_self
      · have hkeep : ∀ jobs : List JobDir, dir ∈ jobs →
            dir ∈ jobs.filter fun other => other != job := fun jobs hmem =>
          List.mem_filter.mpr ⟨hmem, by simpa using heq⟩
        have htail : dir ∈ job :: todo → dir ∈ todo := fun hmem =>
          (List.mem_cons.mp hmem).resolve_left heq
        split
        · exact hdue.imp_right fun hu => ⟨hkeep _ hu.1, htail hu.2⟩
        · split
          · dsimp only
            refine Or.imp (fun hf => ?_) (fun hu => ⟨hkeep _ hu.1, htail hu.2⟩) hdue
            split
            · exact List.mem_cons_of_mem _ hf
            · exact hf
          · exact hdue.imp_right fun hu => ⟨hu.1, htail hu.2⟩

theorem due_notice {spool : Spool} (job : JobDir) (hdue : Due dir s) :
    Due dir { s with spool, phase := s.phase.notice spool job } := by
  unfold Due at hdue ⊢
  unfold Phase.notice
  dsimp only
  cases hphase : s.phase with
  | scanDevice scan todo =>
    rw [hphase] at hdue
    dsimp only
    by_cases hnew : job.device = scan.device ∧ job ∈ spool.entries
    · rw [if_pos hnew]
      exact hdue
    · rw [if_neg hnew]
      exact hdue
  | _ => rw [hphase] at hdue; exact hdue

theorem due_listDevice (device : String) (hdue : Due dir s) : Due dir (listDevice s device) := by
  unfold Discovery.listDevice
  cases hphase : s.phase with
  | rootScan facts begun discovered =>
    dsimp only
    split
    · unfold Due at hdue ⊢
      rw [hphase] at hdue
      exact hdue
    · exact hdue
  | _ => exact hdue

theorem due_listJob (job : JobDir) (hdue : Due dir s) : Due dir (listJob s job) := by
  unfold Discovery.listJob
  cases hphase : s.phase with
  | scanDevice scan todo =>
    dsimp only
    split
    · split
      · unfold Due at hdue ⊢
        rw [hphase] at hdue
        unfold DeviceScan.list
        dsimp only
        split <;> exact hdue
      · exact trivial
    · exact hdue
  | _ => exact hdue

end

/-! ## Runs -/

/-- What is owed to a job that was ready when `n` refreshes had ended. -/
structure Progress (n : Nat) (dir : JobDir) (s : State) : Prop where
  ready : dir ∈ s.spool.ready
  due : n < s.refreshes → Due dir s
  found : n + 1 < s.refreshes → Found dir s

section
variable {s : State} {dir : JobDir} {n : Nat}

theorem refreshes_advance (s : State) : (advance s).refreshes = s.refreshes ∨
    (s.phase = .unready [] ∧ (advance s).refreshes = s.refreshes + 1) := by
  unfold Discovery.advance
  cases hphase : s.phase with
  | idle => dsimp only; split <;> exact Or.inl rfl
  | openRoot facts => exact Or.inl rfl
  | rootScan facts begun discovered => dsimp only; split <;> exact Or.inl rfl
  | devices todo =>
    cases todo with
    | nil => exact Or.inl rfl
    | cons entry todo => dsimp only; split <;> exact Or.inl rfl
  | openDevice device todo => exact Or.inl rfl
  | scanDevice scan todo => dsimp only; split <;> exact Or.inl rfl
  | recordMtime device todo => exact Or.inl rfl
  | unready todo =>
    cases todo with
    | nil => exact Or.inr ⟨rfl, rfl⟩
    | cons job todo => exact Or.inl rfl

theorem spool_advance (s : State) : (advance s).spool = s.spool := by
  unfold Discovery.advance
  cases s.phase with
  | idle => dsimp only; split <;> rfl
  | rootScan facts begun discovered => dsimp only; split <;> rfl
  | devices todo =>
    cases todo with
    | nil => rfl
    | cons entry todo => dsimp only; split <;> rfl
  | scanDevice scan todo => dsimp only; split <;> rfl
  | unready todo => cases todo <;> rfl
  | _ => rfl

theorem progress_advance (h : Invariant s) (hp : Progress n dir s) :
    Progress n dir (advance s) := by
  have hready : dir ∈ (advance s).spool.ready := (spool_advance s).symm ▸ hp.ready
  rcases refreshes_advance s with heq | ⟨hphase, heq⟩
  · exact ⟨hready, fun hlt => due_advance h hp.ready (hp.due (by omega)),
      fun hlt => found_advance h (hp.found (by omega))⟩
  · have hidle : (advance s).phase = .idle := by
      unfold Discovery.advance
      rw [hphase]
    refine ⟨hready, fun _ => ?_, fun hlt => ?_⟩
    · unfold Due
      rw [hidle]
      trivial
    · exact found_advance h (found_of_due (hp.due (by omega)) hphase)

theorem progress_listDevice (device : String) (hp : Progress n dir s) :
    Progress n dir (listDevice s device) := by
  have heq : (listDevice s device).spool = s.spool ∧ (listDevice s device).index = s.index ∧
      (listDevice s device).refreshes = s.refreshes := by
    unfold Discovery.listDevice
    split
    · split <;> exact ⟨rfl, rfl, rfl⟩
    · exact ⟨rfl, rfl, rfl⟩
  obtain ⟨hspool, hindex, hrefreshes⟩ := heq
  refine ⟨hspool ▸ hp.ready, fun hlt => due_listDevice device (hp.due (hrefreshes ▸ hlt)), ?_⟩
  intro hlt
  unfold Found
  rw [hindex]
  exact hp.found (hrefreshes ▸ hlt)

theorem progress_listJob {job : JobDir} (hok : Unraced s (.listJob job)) (hp : Progress n dir s) :
    Progress n dir (listJob s job) := by
  have heq : (listJob s job).spool = s.spool ∧ (listJob s job).index = s.index ∧
      (listJob s job).refreshes = s.refreshes := by
    have hsafe : SafeList s job s.phase := hok
    unfold Discovery.listJob
    cases hphase : s.phase with
    | scanDevice scan todo =>
      rw [hphase] at hsafe
      dsimp only
      split
      · next hnew =>
        rw [if_pos (hsafe hnew.1 hnew.2)]
        exact ⟨rfl, rfl, rfl⟩
      · exact ⟨rfl, rfl, rfl⟩
    | _ => exact ⟨rfl, rfl, rfl⟩
  obtain ⟨hspool, hindex, hrefreshes⟩ := heq
  refine ⟨hspool ▸ hp.ready, fun hlt => due_listJob job (hp.due (hrefreshes ▸ hlt)), ?_⟩
  intro hlt
  unfold Found
  rw [hindex]
  exact hp.found (hrefreshes ▸ hlt)

theorem progress_step {a : Action} (hok : Unraced s a) (h : Invariant s) (hp : Progress n dir s) :
    Progress n dir (step s a) := by
  cases a with
  | makeDevice device tick =>
    exact ⟨(grows_makeDevice _ _ _).ready dir hp.ready, hp.due, hp.found⟩
  | makePartial device job tick =>
    exact ⟨(grows_makePartial _ _ _ _).ready dir hp.ready, fun hlt => due_notice _ (hp.due hlt),
      hp.found⟩
  | rename device job tick =>
    exact ⟨(grows_rename _ _ _ _).ready dir hp.ready, fun hlt => due_notice _ (hp.due hlt),
      hp.found⟩
  | publishReady device job =>
    exact ⟨(grows_publishReady _ _ _).ready dir hp.ready, hp.due, hp.found⟩
  | advance => exact progress_advance h hp
  | listDevice device => exact progress_listDevice device hp
  | listJob job => exact progress_listJob hok hp

end

/-- **A published job is in the index after two more refreshes**, the first of
which may have been under way, in every run in which no refresh is raced. -/
theorem published_is_discovered {spool : Spool} {published later : List Action} {dir : JobDir}
    (hok : AllSteps step Unraced { spool } (published ++ later))
    (hready : dir ∈ (run { spool } published).spool.ready)
    (hcount : (run { spool } published).refreshes + 2 ≤
      (run { spool } (published ++ later)).refreshes) :
    dir ∈ (run { spool } (published ++ later)).index.markersByDevice dir.device := by
  obtain ⟨hbefore, hafter⟩ := allSteps_append.mp hok
  have hinv := invariant_of_allSteps Invariant (fun _ _ => invariant_step) (invariant_start spool)
    hbefore
  have hprogress : Progress (run { spool } published).refreshes dir (run { spool } published) :=
    ⟨hready, fun hlt => absurd hlt (Nat.lt_irrefl _), fun hlt => by omega⟩
  have hend := invariant_of_allSteps
    (fun s => Invariant s ∧ Progress (run { spool } published).refreshes dir s)
    (fun s a hok h => ⟨invariant_step hok h.1, progress_step hok h.1 h.2⟩) ⟨hinv, hprogress⟩ hafter
  unfold run at hcount ⊢
  rw [List.foldl_append] at hcount ⊢
  exact hend.2.found hcount

def emptySpool : Spool where
  devices := []
  entries := []
  ready := []
  rootMtime := 0
  deviceMtime _ := 0
  contained _ h := absurd h List.not_mem_nil
  renamed _ h := absurd h List.not_mem_nil

def publication : List Action :=
  [.makeDevice "pos_1" 0, .makePartial "pos_1" "job" 0, .rename "pos_1" "job" 0,
    .publishReady "pos_1" "job"]

/-- The first refresh scans the root and the device, the second finds no change. -/
def twoRefreshes : List Action :=
  [.advance, .advance, .listDevice "pos_1", .advance, .advance, .advance,
    .listJob ⟨"pos_1", .finalPath "job"⟩, .advance, .advance, .advance, .advance] ++
  List.replicate 4 .advance

theorem publication_is_discovered :
    ⟨"pos_1", .finalPath "job"⟩ ∈
      (run { spool := emptySpool } (publication ++ twoRefreshes)).index.markersByDevice "pos_1" :=
  published_is_discovered (by decide +kernel) (by decide +kernel) (by decide +kernel)

/-! ## The race -/

/-- Nothing on disk has changed since it was recorded, and no job is awaited. -/
structure Quiet (s : State) : Prop where
  idle : s.phase = .idle
  root : s.index.rootMtime = s.spool.rootMtime
  devices : ∀ entry ∈ s.index.deviceMtimes, entry.2 = s.spool.deviceMtime entry.1
  unready : s.index.unreadyJobs = []

theorem advance_current {s : State} {todo : List (String × Int)} (hphase : s.phase = .devices todo)
    (h : ∀ entry ∈ todo, entry.2 = s.spool.deviceMtime entry.1) :
    run s (List.replicate todo.length .advance) = { s with phase := .devices [] } := by
  induction todo generalizing s with
  | nil => exact hphase ▸ rfl
  | cons entry todo ih =>
    have hstep : advance s = { s with phase := .devices todo } := by
      unfold Discovery.advance
      rw [hphase]
      exact if_neg fun hc => hc.2 (h entry List.mem_cons_self).symm
    show run (advance s) (List.replicate todo.length .advance) = _
    rw [hstep]
    exact ih rfl fun other hother => h other (List.mem_cons_of_mem _ hother)

/-- A quiet refresh changes nothing. -/
theorem Quiet.refresh {s : State} (h : Quiet s) :
    run s (.advance :: (List.replicate s.index.deviceMtimes.length .advance ++
      [.advance, .advance])) = { s with refreshes := s.refreshes + 1 } := by
  have hstep : advance s = { s with phase := .devices s.index.deviceMtimes } := by
    unfold Discovery.advance
    rw [h.idle]
    exact if_neg fun hc => hc h.root.symm
  show run (advance s) _ = _
  rw [hstep, run, List.foldl_append]
  have hloop := @advance_current { s with phase := .devices s.index.deviceMtimes } _ rfl h.devices
  unfold run at hloop
  rw [hloop]
  show advance { s with phase := .unready s.index.unreadyJobs } = _
  rw [h.unready]
  show ({ s with phase := .idle, refreshes := s.refreshes + 1 } : State) = _
  rw [← h.idle]

/-- So does any number of them. -/
theorem Quiet.refreshes {s : State} (h : Quiet s) (k : Nat) :
    ∃ later, run s later = { s with refreshes := s.refreshes + k } := by
  induction k with
  | zero => exact ⟨[], rfl⟩
  | succ k ih =>
    obtain ⟨later, hlater⟩ := ih
    have hquiet : Quiet { s with refreshes := s.refreshes + k } := ⟨h.idle, h.root, h.devices, h.unready⟩
    refine ⟨later ++ .advance :: (List.replicate s.index.deviceMtimes.length .advance ++
      [.advance, .advance]), ?_⟩
    have hnext := hquiet.refresh
    unfold run at hlater hnext ⊢
    rw [List.foldl_append, hlater]
    exact hnext

/-- The job is renamed between the scan of its device and the second look at
the mtime, and made ready at once. -/
def race : List Action :=
  [.makeDevice "pos_1" 0, .makePartial "pos_1" "job" 0, .advance, .advance, .listDevice "pos_1",
    .advance, .advance, .advance, .listJob ⟨"pos_1", .partialPath "job"⟩, .advance,
    .rename "pos_1" "job" 0, .advance, .publishReady "pos_1" "job", .advance, .advance, .advance]

theorem race_quiet : Quiet (run { spool := emptySpool } race) :=
  ⟨by decide +kernel, by decide +kernel, by decide +kernel, by decide +kernel⟩

/-- The mtime recorded is the one after the rename: no later refresh looks into
the device again. -/
theorem race_loses_a_job :
    ¬ ∃ bound, ∀ (spool : Spool) (published later : List Action) (dir : JobDir),
      dir ∈ (run { spool } published).spool.ready →
      (run { spool } published).refreshes + bound ≤
        (run { spool } (published ++ later)).refreshes →
      dir ∈ (run { spool } (published ++ later)).index.markersByDevice dir.device := by
  rintro ⟨bound, h⟩
  obtain ⟨later, hlater⟩ := race_quiet.refreshes bound
  have hrun : run { spool := emptySpool } (race ++ later) =
      { run { spool := emptySpool } race with
        refreshes := (run { spool := emptySpool } race).refreshes + bound } := by
    rw [← hlater, run, List.foldl_append]
    rfl
  have hfound := h emptySpool race later ⟨"pos_1", .finalPath "job"⟩ (by decide +kernel)
    (Nat.le_of_eq (congrArg State.refreshes hrun.symm))
  rw [hrun] at hfound
  have hlost : ⟨"pos_1", .finalPath "job"⟩ ∉
      (run { spool := emptySpool } race).index.markersByDevice "pos_1" := by decide +kernel
  exact hlost hfound

end RetailPrintGuard.Ingestion.Published
