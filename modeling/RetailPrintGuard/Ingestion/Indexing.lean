import Mathlib.Data.List.Nodup
import RetailPrintGuard.Ingestion.Discovery

/-! # What the index knows

A device whose recorded mtime is the present one has all its renamed jobs in
the index, and the index follows the spool through every call of a refresh. -/
namespace RetailPrintGuard.Ingestion.Indexing
open RetailPrintGuard.Library.Runs RetailPrintGuard.Ingestion.Discovery

/-! ## The spool grows -/

/-- What the publisher does to the spool: nothing that was renamed or made
ready goes away, and what is new shows in an mtime. -/
structure Grows (spool spool' : Spool) : Prop where
  devices : ∀ device ∈ spool.devices, device ∈ spool'.devices
  root : spool.rootMtime ≤ spool'.rootMtime
  newDevice : spool.rootMtime = spool'.rootMtime → ∀ device ∈ spool'.devices, device ∈ spool.devices
  mtime : ∀ device, spool.deviceMtime device ≤ spool'.deviceMtime device
  entries : ∀ dir ∈ spool.entries, dir.name.isFinal = true → dir ∈ spool'.entries
  newEntry : ∀ dir ∈ spool'.entries, dir.name.isFinal = true → dir ∉ spool.entries →
    spool.deviceMtime dir.device < spool'.deviceMtime dir.device
  ready : ∀ dir ∈ spool.ready, dir ∈ spool'.ready

theorem Grows.refl (spool : Spool) : Grows spool spool where
  devices _ h := h
  root := Nat.le_refl _
  newDevice _ _ h := h
  mtime _ := Nat.le_refl _
  entries _ h _ := h
  newEntry _ h _ hn := absurd h hn
  ready _ h := h

theorem le_touch (spool : Spool) (device : String) (ticks : Nat) (other : String) :
    spool.deviceMtime other ≤ spool.touch device ticks other := by
  unfold Spool.touch
  split <;> omega

theorem grows_makeDevice (spool : Spool) (device : String) (tick : Nat) :
    Grows spool (spool.makeDevice device tick) := by
  unfold Spool.makeDevice
  split
  · exact Grows.refl spool
  · refine ⟨fun _ h => List.mem_cons_of_mem _ h, ?_, ?_, fun _ => Nat.le_refl _, fun _ h _ => h,
      fun _ h _ hn => absurd h hn, fun _ h => h⟩
    · show spool.rootMtime ≤ spool.rootMtime + tick + 1
      omega
    · intro h
      have : spool.rootMtime = spool.rootMtime + tick + 1 := h
      omega

theorem grows_makePartial (spool : Spool) (device job : String) (tick : Nat) :
    Grows spool (spool.makePartial device job tick) := by
  unfold Spool.makePartial
  split
  · refine ⟨fun _ h => h, Nat.le_refl _, fun _ _ h => h, le_touch spool device tick,
      fun _ h _ => List.mem_cons_of_mem _ h, ?_, fun _ h => h⟩
    intro dir hdir hfinal hnew
    rcases List.mem_cons.mp hdir with rfl | hdir
    · cases hfinal
    · exact absurd hdir hnew
  · exact Grows.refl spool

theorem grows_rename (spool : Spool) (device job : String) (tick : Nat) :
    Grows spool (spool.rename device job tick) := by
  unfold Spool.rename
  split
  · refine ⟨fun _ h => h, Nat.le_refl _, fun _ _ h => h, le_touch spool device (tick + 1), ?_, ?_,
      fun _ h => h⟩
    · intro dir hdir hfinal
      refine List.mem_cons_of_mem _ (List.mem_filter.mpr ⟨hdir, ?_⟩)
      rw [bne_iff_ne]
      rintro rfl
      cases hfinal
    · intro dir hdir hfinal hnew
      rcases List.mem_cons.mp hdir with rfl | hdir
      · show spool.deviceMtime device < spool.touch device (tick + 1) device
        rw [Spool.touch, if_pos rfl]
        omega
      · exact absurd (List.mem_of_mem_filter hdir) hnew
  · exact Grows.refl spool

theorem grows_publishReady (spool : Spool) (device job : String) :
    Grows spool (spool.publishReady device job) := by
  unfold Spool.publishReady
  split
  · exact { Grows.refl spool with ready := fun _ h => List.mem_cons_of_mem _ h }
  · exact Grows.refl spool

/-! ## The invariant -/

/-- The index has met the job directory. -/
def Known (index : DiscoveryIndex) (dir : JobDir) : Prop :=
  dir ∈ index.markersByDevice dir.device ∨ dir ∈ index.unreadyJobs

def keys (index : DiscoveryIndex) : List String := index.deviceMtimes.map Prod.fst

/-- The loop over the devices: each once, with the mtime it was recorded with. -/
structure Ahead (index : DiscoveryIndex) (todo : List (String × Int)) : Prop where
  recorded : ∀ entry ∈ todo, entry ∈ index.deviceMtimes
  once : (todo.map Prod.fst).Nodup

/-- A device that is scanned because its mtime has changed. -/
structure Stale (spool : Spool) (index : DiscoveryIndex) (device : String)
    (todo : List (String × Int)) : Prop where
  ahead : Ahead index todo
  once : device ∉ todo.map Prod.fst
  older : ∀ mtime, (device, mtime) ∈ index.deviceMtimes → mtime < spool.deviceMtime device

/-- What a scan has collected so far. -/
structure Scanned (spool : Spool) (index : DiscoveryIndex) (scan : DeviceScan) : Prop where
  device : ∀ dir ∈ scan.possible, dir.device = scan.device
  begun : ∀ dir, dir.name.isFinal = true → dir.device = scan.device → Known index dir →
    dir ∈ scan.begun
  listed : ∀ dir ∈ scan.listed, dir ∈ scan.currentMarkers ∨ dir ∈ scan.currentUnready
  markers : ∀ dir ∈ scan.currentMarkers, dir ∈ spool.ready ∧ dir.device = scan.device
  unready : ∀ dir ∈ scan.currentUnready, dir.device = scan.device ∧
    (dir.name.isFinal = true → dir ∈ spool.entries) ∧ dir ∉ index.markersByDevice scan.device

def PhaseInvariant (s : State) : Prop :=
  match s.phase with
  | .idle => True
  | .openRoot facts => facts ≤ s.spool.rootMtime
  | .rootScan facts begun discovered =>
    facts ≤ s.spool.rootMtime ∧
      (facts = s.spool.rootMtime → ∀ device ∈ s.spool.devices, device ∈ begun) ∧
      (∀ device ∈ keys s.index, device ∈ begun) ∧
      (∀ device ∈ discovered, device ∈ s.spool.devices) ∧ discovered.Nodup
  | .devices todo => Ahead s.index todo
  | .openDevice device todo => Stale s.spool s.index device todo
  | .scanDevice scan todo => Stale s.spool s.index scan.device todo ∧ Scanned s.spool s.index scan
  | .recordMtime device todo => Stale s.spool s.index device todo
  | .unready _ => True

structure Invariant (s : State) : Prop where
  once : (keys s.index).Nodup
  devices : ∀ device ∈ keys s.index, device ∈ s.spool.devices
  root : s.index.rootMtime ≤ s.spool.rootMtime
  rootListed : s.index.rootMtime = s.spool.rootMtime →
    ∀ device ∈ s.spool.devices, device ∈ keys s.index
  mtime : ∀ entry ∈ s.index.deviceMtimes, entry.2 ≤ s.spool.deviceMtime entry.1
  current : ∀ entry ∈ s.index.deviceMtimes, entry.2 = s.spool.deviceMtime entry.1 →
    ∀ dir ∈ s.spool.entries, dir.device = entry.1 → dir.name.isFinal = true → Known s.index dir
  known : ∀ dir, dir.name.isFinal = true → Known s.index dir → dir ∈ s.spool.entries
  marked : ∀ device, ∀ dir ∈ s.index.markersByDevice device,
    dir ∈ s.spool.ready ∧ dir.device = device
  phase : PhaseInvariant s

theorem invariant_start (spool : Spool) : Invariant { spool } where
  once := List.nodup_nil
  devices _ h := absurd h List.not_mem_nil
  root := by
    show (-1 : Int) ≤ spool.rootMtime
    omega
  rootListed h := by
    have : (-1 : Int) = spool.rootMtime := h
    omega
  mtime _ h := absurd h List.not_mem_nil
  current _ h := absurd h List.not_mem_nil
  known dir _ h := by rcases h with h | h <;> exact absurd h List.not_mem_nil
  marked _ _ h := absurd h List.not_mem_nil
  phase := trivial

/-! ## The publisher keeps it -/

theorem Stale.grow {spool spool' : Spool} {index : DiscoveryIndex} {device : String}
    {todo : List (String × Int)} (h : Stale spool index device todo) (hg : Grows spool spool') :
    Stale spool' index device todo := by
  refine ⟨h.ahead, h.once, fun mtime hm => ?_⟩
  have := h.older mtime hm
  have := hg.mtime device
  omega

theorem Scanned.grow {spool spool' : Spool} {index : DiscoveryIndex} {scan : DeviceScan}
    (h : Scanned spool index scan) (hg : Grows spool spool') : Scanned spool' index scan where
  device := h.device
  begun := h.begun
  listed := h.listed
  markers dir hd := ⟨hg.ready dir (h.markers dir hd).1, (h.markers dir hd).2⟩
  unready dir hd :=
    ⟨(h.unready dir hd).1, fun hf => hg.entries dir ((h.unready dir hd).2.1 hf) hf,
      (h.unready dir hd).2.2⟩

theorem Invariant.grow {s : State} (h : Invariant s) {spool : Spool} (hg : Grows s.spool spool) :
    Invariant { s with spool } := by
  have hroot := h.root
  have hroot' := hg.root
  refine ⟨h.once, fun d hd => hg.devices d (h.devices d hd), ?_, ?_, ?_, ?_, ?_, ?_, ?_⟩
  · show s.index.rootMtime ≤ spool.rootMtime
    omega
  · intro heq device hdevice
    have heq : s.index.rootMtime = spool.rootMtime := heq
    exact h.rootListed (by omega) device (hg.newDevice (by omega) device hdevice)
  · intro entry hentry
    have hle := h.mtime entry hentry
    have hle' := hg.mtime entry.1
    show entry.2 ≤ spool.deviceMtime entry.1
    omega
  · intro entry hentry heq dir hdir hdevice hfinal
    have heq : entry.2 = spool.deviceMtime entry.1 := heq
    have hle := h.mtime entry hentry
    have hle' := hg.mtime entry.1
    by_cases hold : dir ∈ s.spool.entries
    · exact h.current entry hentry (by omega) dir hold hdevice hfinal
    · have hlt := hg.newEntry dir hdir hfinal hold
      rw [hdevice] at hlt
      omega
  · exact fun dir hfinal hk => hg.entries dir (h.known dir hfinal hk) hfinal
  · intro device dir hdir
    obtain ⟨hready, hdevice⟩ := h.marked device dir hdir
    exact ⟨hg.ready dir hready, hdevice⟩
  · have hp := h.phase
    unfold PhaseInvariant at hp ⊢
    dsimp only
    cases hphase : s.phase with
    | idle => trivial
    | openRoot facts =>
      rw [hphase] at hp
      exact Nat.le_trans hp hroot'
    | rootScan facts begun discovered =>
      rw [hphase] at hp
      obtain ⟨hfacts, hbegun, hkeys, hdiscovered, hnodup⟩ := hp
      refine ⟨Nat.le_trans hfacts hroot', fun heq device hdevice => ?_, hkeys,
        fun d hd => hg.devices d (hdiscovered d hd), hnodup⟩
      exact hbegun (by omega) device (hg.newDevice (by omega) device hdevice)
    | devices todo => rw [hphase] at hp; exact hp
    | openDevice device todo => rw [hphase] at hp; exact Stale.grow hp hg
    | scanDevice scan todo => rw [hphase] at hp; exact ⟨hp.1.grow hg, hp.2.grow hg⟩
    | recordMtime device todo => rw [hphase] at hp; exact Stale.grow hp hg
    | unready todo => trivial

/-- Moving on without a change of the index or the spool. -/
theorem Invariant.rephase {s : State} (h : Invariant s) {phase : Phase} (n : Nat)
    (hp : PhaseInvariant { s with phase, refreshes := n }) :
    Invariant { s with phase, refreshes := n } :=
  ⟨h.once, h.devices, h.root, h.rootListed, h.mtime, h.current, h.known, h.marked, hp⟩

theorem Invariant.notice {s : State} (h : Invariant s) (job : JobDir) :
    Invariant { s with phase := s.phase.notice s.spool job } := by
  refine h.rephase s.refreshes ?_
  have hp := h.phase
  unfold PhaseInvariant at hp ⊢
  unfold Phase.notice
  dsimp only
  cases hphase : s.phase with
  | scanDevice scan todo =>
    rw [hphase] at hp
    obtain ⟨hs, hc⟩ := hp
    dsimp only
    by_cases hnew : job.device = scan.device ∧ job ∈ s.spool.entries
    · rw [if_pos hnew]
      refine ⟨hs, ?_, hc.begun, hc.listed, hc.markers, hc.unready⟩
      intro dir hd
      rcases List.mem_cons.mp hd with rfl | hd
      · exact hnew.1
      · exact hc.device dir hd
    · rw [if_neg hnew]
      exact ⟨hs, hc⟩
  | _ => rw [hphase] at hp; exact hp

/-! ## A refresh keeps it -/

/-- A listing of the root that yields every known device forgets nothing. -/
theorem rootScanned_eq {index : DiscoveryIndex} {discovered : List String} (facts : Nat)
    (h : ∀ device ∈ keys index, device ∈ discovered) :
    index.rootScanned facts discovered =
      { index with
        rootMtime := facts
        deviceMtimes := index.deviceMtimes ++
          (discovered.filter fun device => !(keys index).contains device).map fun device =>
            (device, -1) } := by
  have hkept : (index.deviceMtimes.filter fun entry => discovered.contains entry.1) =
      index.deviceMtimes := by
    rw [List.filter_eq_self]
    intro entry hentry
    simpa using h entry.1 (List.mem_map_of_mem hentry)
  have hremoved : (index.deviceMtimes.map Prod.fst).filter
      (fun device => !discovered.contains device) = [] := by
    rw [List.filter_eq_nil_iff]
    intro device hdevice
    simpa using h device hdevice
  simp only [DiscoveryIndex.rootScanned, hkept, hremoved]
  simp [keys]

theorem keys_rootScanned {index : DiscoveryIndex} {discovered : List String} (facts : Nat)
    (h : ∀ device ∈ keys index, device ∈ discovered) :
    keys (index.rootScanned facts discovered) =
      keys index ++ discovered.filter fun device => !(keys index).contains device := by
  rw [rootScanned_eq facts h]
  simp only [keys, List.map_append, List.map_map]
  congr 1
  exact List.map_id _

theorem Invariant.rootScanned {s : State} {facts : Nat} {begun discovered : List String}
    (h : Invariant s) (hphase : s.phase = .rootScan facts begun discovered)
    (hdone : ∀ device ∈ begun, device ∈ discovered) :
    Invariant { s with
      index := s.index.rootScanned facts discovered
      phase := .devices (s.index.rootScanned facts discovered).deviceMtimes } := by
  have hp := h.phase
  unfold PhaseInvariant at hp
  rw [hphase] at hp
  obtain ⟨hfacts, hbegun, hkeys, hdiscovered, hnodup⟩ := hp
  have hsub : ∀ device ∈ keys s.index, device ∈ discovered :=
    fun device hd => hdone device (hkeys device hd)
  have heq := rootScanned_eq facts hsub
  have hkeyed := keys_rootScanned facts hsub
  have hknown : ∀ dir, Known (s.index.rootScanned facts discovered) dir ↔ Known s.index dir := by
    intro dir
    rw [heq]
    exact Iff.rfl
  have honce : (keys (s.index.rootScanned facts discovered)).Nodup := by
    rw [hkeyed, List.nodup_append]
    refine ⟨h.once, hnodup.filter _, fun a ha b hb hab => ?_⟩
    have := (List.mem_filter.mp hb).2
    rw [hab] at ha
    simp [ha] at this
  -- an entry is old, or new and without an mtime
  have hentry : ∀ entry ∈ (s.index.rootScanned facts discovered).deviceMtimes,
      entry ∈ s.index.deviceMtimes ∨ entry.2 = -1 := by
    intro entry hentry
    rw [heq] at hentry
    rcases List.mem_append.mp hentry with hold | hnew
    · exact Or.inl hold
    · obtain ⟨device, _, rfl⟩ := List.mem_map.mp hnew
      exact Or.inr rfl
  refine ⟨honce, ?_, ?_, ?_, ?_, ?_, ?_, ?_, ?_⟩
  · intro device hdevice
    have hdevice : device ∈ keys (s.index.rootScanned facts discovered) := hdevice
    rw [hkeyed] at hdevice
    rcases List.mem_append.mp hdevice with hold | hnew
    · exact h.devices device hold
    · exact hdiscovered device (List.mem_of_mem_filter hnew)
  · show ((s.index.rootScanned facts discovered).rootMtime : Int) ≤ s.spool.rootMtime
    rw [heq]
    exact Int.ofNat_le.mpr hfacts
  · intro hroot device hdevice
    have hroot : ((s.index.rootScanned facts discovered).rootMtime : Int) = s.spool.rootMtime :=
      hroot
    rw [heq] at hroot
    show device ∈ keys (s.index.rootScanned facts discovered)
    rw [hkeyed, List.mem_append, List.mem_filter]
    by_cases hk : device ∈ keys s.index
    · exact Or.inl hk
    · exact Or.inr ⟨hdone device (hbegun (Int.ofNat_inj.mp hroot) device hdevice), by simpa using hk⟩
  · intro entry he
    rcases hentry entry he with hold | hnew
    · exact h.mtime entry hold
    · show entry.2 ≤ (s.spool.deviceMtime entry.1 : Int)
      omega
  · intro entry he hm dir hdir hdevice hfinal
    rcases hentry entry he with hold | hnew
    · exact (hknown dir).mpr (h.current entry hold hm dir hdir hdevice hfinal)
    · have hm : entry.2 = (s.spool.deviceMtime entry.1 : Int) := hm
      omega
  · exact fun dir hfinal hk => h.known dir hfinal ((hknown dir).mp hk)
  · intro device dir hdir
    refine h.marked device dir ?_
    have hdir : dir ∈ (s.index.rootScanned facts discovered).markersByDevice device := hdir
    rw [heq] at hdir
    exact hdir
  · exact ⟨fun _ he => he, honce⟩

/-- After a scan the index knows what the scan has collected. -/
theorem known_deviceScanned {spool : Spool} {index : DiscoveryIndex} {scan : DeviceScan}
    (hc : Scanned spool index scan) (dir : JobDir) :
    Known (index.deviceScanned scan) dir ↔
      if dir.device = scan.device then dir ∈ scan.currentMarkers ∨ dir ∈ scan.currentUnready
      else Known index dir := by
  unfold Known DiscoveryIndex.deviceScanned
  dsimp only
  rw [List.mem_append, List.mem_filter]
  by_cases hd : dir.device = scan.device
  · simp [hd]
  · have hn : dir ∉ scan.currentUnready := fun hmem => hd (hc.unready dir hmem).1
    simp [hd, hn]

theorem Invariant.deviceScanned {s : State} {scan : DeviceScan} {todo : List (String × Int)}
    (h : Invariant s) (hphase : s.phase = .scanDevice scan todo) :
    Invariant { s with
      index := s.index.deviceScanned scan
      phase := .recordMtime scan.device todo } := by
  have hp := h.phase
  unfold PhaseInvariant at hp
  rw [hphase] at hp
  obtain ⟨hs, hc⟩ := hp
  refine ⟨h.once, h.devices, h.root, h.rootListed, h.mtime, ?_, ?_, ?_, ?_⟩
  · intro entry hentry hm dir hdir hdevice hfinal
    by_cases hdev : dir.device = scan.device
    · -- the device is scanned because its recorded mtime is an older one
      have hm : entry.2 = (s.spool.deviceMtime entry.1 : Int) := hm
      have hlt := hs.older entry.2 (by rw [← hdev, hdevice]; exact hentry)
      rw [← hdev, hdevice] at hlt
      omega
    · refine (known_deviceScanned hc dir).mpr ?_
      rw [if_neg hdev]
      exact h.current entry hentry hm dir hdir hdevice hfinal
  · intro dir hfinal hk
    have hk := (known_deviceScanned hc dir).mp hk
    split at hk
    · rcases hk with hm | hu
      · exact (s.spool.renamed dir (hc.markers dir hm).1).1
      · exact (hc.unready dir hu).2.1 hfinal
    · exact h.known dir hfinal hk
  · intro device dir hdir
    have hdir : dir ∈ if device = scan.device then scan.currentMarkers
        else s.index.markersByDevice device := hdir
    split at hdir
    · next heq => exact heq ▸ hc.markers dir hdir
    · exact h.marked device dir hdir
  · exact ⟨⟨hs.ahead.recorded, hs.ahead.once⟩, hs.once, hs.older⟩

/-- A name is listed with the state its marker is in. -/
theorem Scanned.list {s : State} {scan : DeviceScan} (h : Invariant s)
    (hc : Scanned s.spool s.index scan) {job : JobDir} (hpossible : job ∈ scan.possible)
    (hjob : job ∈ s.spool.entries) : Scanned s.spool s.index (scan.list s.spool job) := by
  unfold DeviceScan.list
  split
  · next hready =>
    refine ⟨hc.device, hc.begun, ?_, ?_, hc.unready⟩
    · intro dir hdir
      rcases List.mem_cons.mp hdir with rfl | hdir
      · exact Or.inl List.mem_cons_self
      · exact (hc.listed dir hdir).imp_left (List.mem_cons_of_mem _)
    · intro dir hdir
      rcases List.mem_cons.mp hdir with rfl | hdir
      · exact ⟨hready, hc.device _ hpossible⟩
      · exact hc.markers dir hdir
  · next hready =>
    refine ⟨hc.device, hc.begun, ?_, hc.markers, ?_⟩
    · intro dir hdir
      rcases List.mem_cons.mp hdir with rfl | hdir
      · exact Or.inr List.mem_cons_self
      · exact (hc.listed dir hdir).imp_right (List.mem_cons_of_mem _)
    · intro dir hdir
      rcases List.mem_cons.mp hdir with rfl | hdir
      · exact ⟨hc.device _ hpossible, fun _ => hjob, fun hm => hready (h.marked _ _ hm).1⟩
      · exact hc.unready dir hdir

/-- Every renamed job of the device is in the index. -/
def AllKnown (s : State) (device : String) : Prop :=
  ∀ dir ∈ s.spool.entries, dir.device = device → dir.name.isFinal = true → Known s.index dir

theorem keys_recorded (index : DiscoveryIndex) (device : String) (mtime : Nat) :
    keys (index.recorded device mtime) = keys index := by
  simp only [keys, DiscoveryIndex.recorded, List.map_map]
  refine List.map_congr_left fun entry _ => ?_
  rw [Function.comp_apply]
  split
  · next heq => exact heq.symm
  · rfl

theorem Invariant.recorded {s : State} {device : String} {todo : List (String × Int)}
    (h : Invariant s) (hphase : s.phase = .recordMtime device todo) (hall : AllKnown s device) :
    Invariant { s with
      index := s.index.recorded device (s.spool.deviceMtime device)
      phase := .devices todo } := by
  have hp := h.phase
  unfold PhaseInvariant at hp
  rw [hphase] at hp
  have hkeyed := keys_recorded s.index device (s.spool.deviceMtime device)
  have hentry : ∀ entry ∈ (s.index.recorded device (s.spool.deviceMtime device)).deviceMtimes,
      entry = (device, (s.spool.deviceMtime device : Int)) ∨ entry ∈ s.index.deviceMtimes := by
    intro entry hentry
    obtain ⟨old, hold, rfl⟩ := List.mem_map.mp hentry
    split
    · exact Or.inl rfl
    · exact Or.inr hold
  refine ⟨?_, ?_, h.root, ?_, ?_, ?_, h.known, h.marked, ?_, ?_⟩
  · show (keys (s.index.recorded device _)).Nodup
    rw [hkeyed]
    exact h.once
  · intro other hother
    have hother : other ∈ keys (s.index.recorded device (s.spool.deviceMtime device)) := hother
    rw [hkeyed] at hother
    exact h.devices other hother
  · intro hroot other hother
    show other ∈ keys (s.index.recorded device _)
    rw [hkeyed]
    exact h.rootListed hroot other hother
  · intro entry he
    rcases hentry entry he with rfl | hold
    · exact Int.le_refl _
    · exact h.mtime entry hold
  · intro entry he hm dir hdir hdevice hfinal
    rcases hentry entry he with rfl | hold
    · exact hall dir hdir hdevice hfinal
    · exact h.current entry hold hm dir hdir hdevice hfinal
  · intro entry he
    refine List.mem_map.mpr ⟨entry, hp.ahead.recorded entry he, ?_⟩
    rw [if_neg]
    rintro rfl
    exact hp.once (List.mem_map_of_mem he)
  · exact hp.ahead.once

/-- Rechecking forgets only what is gone and learns only what is ready. -/
theorem known_rechecked (index : DiscoveryIndex) (spool : Spool) (job dir : JobDir) :
    (dir ∈ spool.entries → Known index dir → Known (index.rechecked spool job) dir) ∧
      (Known (index.rechecked spool job) dir → Known index dir ∨ dir ∈ spool.ready) := by
  unfold DiscoveryIndex.rechecked Known
  split
  · next hgone =>
    constructor
    · intro hdir hk
      refine hk.imp_right fun hu => List.mem_filter.mpr ⟨hu, ?_⟩
      rw [bne_iff_ne]
      rintro rfl
      exact hgone hdir
    · exact fun hk => Or.inl (hk.imp_right List.mem_of_mem_filter)
  · split
    · next hready =>
      dsimp only
      constructor
      · intro _ hk
        by_cases heq : dir = job
        · rw [heq, if_pos rfl]
          exact Or.inl List.mem_cons_self
        · rcases hk with hm | hu
          · left
            split
            · exact List.mem_cons_of_mem _ hm
            · exact hm
          · exact Or.inr (List.mem_filter.mpr ⟨hu, by simpa using heq⟩)
      · rintro (hm | hu)
        · split at hm
          · rcases List.mem_cons.mp hm with rfl | hm
            · exact Or.inr hready
            · exact Or.inl (Or.inl hm)
          · exact Or.inl (Or.inl hm)
        · exact Or.inl (Or.inr (List.mem_of_mem_filter hu))
    · exact ⟨fun _ hk => hk, Or.inl⟩

theorem marked_rechecked {index : DiscoveryIndex} {spool : Spool} {job : JobDir}
    (h : ∀ device, ∀ dir ∈ index.markersByDevice device, dir ∈ spool.ready ∧ dir.device = device) :
    ∀ device, ∀ dir ∈ (index.rechecked spool job).markersByDevice device,
      dir ∈ spool.ready ∧ dir.device = device := by
  intro device dir hdir
  unfold DiscoveryIndex.rechecked at hdir
  split at hdir
  · exact h device dir hdir
  · split at hdir
    · next hready =>
      dsimp only at hdir
      split at hdir
      · next hdevice =>
        rcases List.mem_cons.mp hdir with rfl | hdir
        · exact ⟨hready, hdevice.symm⟩
        · exact h device dir hdir
      · exact h device dir hdir
    · exact h device dir hdir

theorem rechecked_mtimes (index : DiscoveryIndex) (spool : Spool) (job : JobDir) :
    (index.rechecked spool job).deviceMtimes = index.deviceMtimes ∧
      (index.rechecked spool job).rootMtime = index.rootMtime := by
  unfold DiscoveryIndex.rechecked
  split
  · exact ⟨rfl, rfl⟩
  · split <;> exact ⟨rfl, rfl⟩

theorem Invariant.rechecked {s : State} {todo : List JobDir} (h : Invariant s) (job : JobDir) :
    Invariant { s with index := s.index.rechecked s.spool job, phase := .unready todo } := by
  obtain ⟨hmtimes, hroot⟩ := rechecked_mtimes s.index s.spool job
  have hkeys : keys (s.index.rechecked s.spool job) = keys s.index := by rw [keys, keys, hmtimes]
  refine ⟨hkeys ▸ h.once, hkeys ▸ h.devices, hroot ▸ h.root, ?_, hmtimes ▸ h.mtime, ?_, ?_,
    marked_rechecked h.marked, trivial⟩
  · intro heq device hdevice
    show device ∈ keys (s.index.rechecked s.spool job)
    rw [hkeys]
    exact h.rootListed (hroot ▸ heq) device hdevice
  · intro entry hentry hm dir hdir hdevice hfinal
    exact (known_rechecked s.index s.spool job dir).1 hdir
      (h.current entry (hmtimes ▸ hentry) hm dir hdir hdevice hfinal)
  · intro dir hfinal hk
    rcases (known_rechecked s.index s.spool job dir).2 hk with hk | hready
    · exact h.known dir hfinal hk
    · exact (s.spool.renamed dir hready).1

end RetailPrintGuard.Ingestion.Indexing
