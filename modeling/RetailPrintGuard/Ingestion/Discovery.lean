import RetailPrintGuard.Library.Runs

/-! # The discovery index of the canonical spool

The publisher and one refresh of the index interleave, one file-system call at
a time. A directory's mtime grows strictly when a device directory or a renamed
job directory appears in it. Names never return: a job id is drawn once. -/
namespace RetailPrintGuard.Ingestion.Discovery
open RetailPrintGuard.Library.Runs

/-! ## The spool -/

/-- The name of a job directory before and after the atomic rename. -/
inductive JobName where
  | partialPath (job : String)
  | finalPath (job : String)
deriving DecidableEq

structure JobDir where
  device : String
  name : JobName
deriving DecidableEq

def JobName.isFinal : JobName → Bool
  | .partialPath _ => false
  | .finalPath _ => true

structure Spool where
  devices : List String
  entries : List JobDir
  /-- the job directories that hold a regular `.ready` -/
  ready : List JobDir
  rootMtime : Nat
  deviceMtime : String → Nat
  contained : ∀ dir ∈ entries, dir.device ∈ devices
  renamed : ∀ dir ∈ ready, dir ∈ entries ∧ dir.name.isFinal = true

namespace Spool

/-- `device_root.mkdir(parents=True, exist_ok=True)` -/
def makeDevice (spool : Spool) (device : String) (tick : Nat) : Spool :=
  if device ∈ spool.devices then spool
  else
    { spool with
      devices := device :: spool.devices
      rootMtime := spool.rootMtime + tick + 1
      contained := fun dir hdir => List.mem_cons_of_mem _ (spool.contained dir hdir) }

def touch (spool : Spool) (device : String) (ticks : Nat) : String → Nat :=
  fun other => if other = device then spool.deviceMtime other + ticks else spool.deviceMtime other

/-- `partial_path.mkdir()` -/
def makePartial (spool : Spool) (device job : String) (tick : Nat) : Spool :=
  if h : device ∈ spool.devices ∧ ⟨device, .partialPath job⟩ ∉ spool.entries ∧
      ⟨device, .finalPath job⟩ ∉ spool.entries then
    { spool with
      entries := ⟨device, .partialPath job⟩ :: spool.entries
      deviceMtime := spool.touch device tick
      contained := by
        intro dir hdir
        rcases List.mem_cons.mp hdir with rfl | hdir
        · exact h.1
        · exact spool.contained dir hdir
      renamed := fun dir hdir =>
        ⟨List.mem_cons_of_mem _ (spool.renamed dir hdir).1, (spool.renamed dir hdir).2⟩ }
  else spool

/-- `os.replace(partial_path, final_path)` -/
def rename (spool : Spool) (device job : String) (tick : Nat) : Spool :=
  if h : ⟨device, .partialPath job⟩ ∈ spool.entries ∧ ⟨device, .finalPath job⟩ ∉ spool.entries then
    { spool with
      entries := ⟨device, .finalPath job⟩ ::
        spool.entries.filter fun dir => dir != ⟨device, .partialPath job⟩
      deviceMtime := spool.touch device (tick + 1)
      contained := by
        intro dir hdir
        rcases List.mem_cons.mp hdir with rfl | hdir
        · have hdevice := spool.contained _ h.1
          exact hdevice
        · exact spool.contained dir (List.mem_of_mem_filter hdir)
      renamed := by
        intro dir hdir
        obtain ⟨hmem, hfinal⟩ := spool.renamed dir hdir
        refine ⟨List.mem_cons_of_mem _ (List.mem_filter.mpr ⟨hmem, ?_⟩), hfinal⟩
        rw [bne_iff_ne]
        rintro rfl
        cases hfinal }
  else spool

/-- `_publish_ready` -/
def publishReady (spool : Spool) (device job : String) : Spool :=
  if h : ⟨device, .finalPath job⟩ ∈ spool.entries then
    { spool with
      ready := ⟨device, .finalPath job⟩ :: spool.ready
      renamed := by
        intro dir hdir
        rcases List.mem_cons.mp hdir with rfl | hdir
        · exact ⟨h, rfl⟩
        · exact spool.renamed dir hdir }
  else spool

end Spool

/-! ## The index and its refresh -/

structure DiscoveryIndex where
  rootMtime : Int := -1
  deviceMtimes : List (String × Int) := []
  markersByDevice : String → List JobDir := fun _ => []
  unreadyJobs : List JobDir := []

/-- `_scan_device` while it runs. -/
structure DeviceScan where
  device : String
  /-- what the directory held when the scan was opened -/
  begun : List JobDir
  /-- and whatever it held since -/
  possible : List JobDir
  listed : List JobDir := []
  currentMarkers : List JobDir := []
  currentUnready : List JobDir := []
deriving DecidableEq

/-- Where a refresh stands between two file-system calls. -/
inductive Phase where
  | idle
  | openRoot (facts : Nat)
  | rootScan (facts : Nat) (begun discovered : List String)
  | devices (todo : List (String × Int))
  | openDevice (device : String) (todo : List (String × Int))
  | scanDevice (scan : DeviceScan) (todo : List (String × Int))
  | recordMtime (device : String) (todo : List (String × Int))
  | unready (todo : List JobDir)
deriving DecidableEq

structure State where
  spool : Spool
  index : DiscoveryIndex := {}
  phase : Phase := .idle
  /-- the refreshes that ended -/
  refreshes : Nat := 0

/-- The root was listed: forget the devices that are gone, add the new ones. -/
def DiscoveryIndex.rootScanned (index : DiscoveryIndex) (facts : Nat) (discovered : List String) :
    DiscoveryIndex :=
  let kept := index.deviceMtimes.filter fun entry => discovered.contains entry.1
  let removed := (index.deviceMtimes.map Prod.fst).filter fun device => !discovered.contains device
  let added := discovered.filter fun device => !(kept.map Prod.fst).contains device
  { rootMtime := facts
    deviceMtimes := kept ++ added.map fun device => (device, -1)
    markersByDevice := fun device =>
      if removed.contains device then [] else index.markersByDevice device
    unreadyJobs := index.unreadyJobs.filter fun job => !removed.contains job.device }

/-- The end of `_scan_device`. -/
def DiscoveryIndex.deviceScanned (index : DiscoveryIndex) (scan : DeviceScan) : DiscoveryIndex :=
  { index with
    markersByDevice := fun device =>
      if device = scan.device then scan.currentMarkers else index.markersByDevice device
    unreadyJobs :=
      (index.unreadyJobs.filter fun job => job.device != scan.device) ++ scan.currentUnready }

/-- `self._device_mtimes[device_dir] = ...` -/
def DiscoveryIndex.recorded (index : DiscoveryIndex) (device : String) (mtime : Nat) :
    DiscoveryIndex :=
  { index with
    deviceMtimes := index.deviceMtimes.map fun entry =>
      if entry.1 = device then (device, (mtime : Int)) else entry }

/-- One round of the loop over the jobs that were not ready. -/
def DiscoveryIndex.rechecked (index : DiscoveryIndex) (spool : Spool) (job : JobDir) :
    DiscoveryIndex :=
  if job ∉ spool.entries then
    { index with unreadyJobs := index.unreadyJobs.filter fun other => other != job }
  else if job ∈ spool.ready then
    { index with
      markersByDevice := fun device =>
        if device = job.device then job :: index.markersByDevice device
        else index.markersByDevice device
      unreadyJobs := index.unreadyJobs.filter fun other => other != job }
  else index

/-- One entry of a device directory. -/
def DeviceScan.list (scan : DeviceScan) (spool : Spool) (job : JobDir) : DeviceScan :=
  if job ∈ spool.ready then
    { scan with listed := job :: scan.listed, currentMarkers := job :: scan.currentMarkers }
  else { scan with listed := job :: scan.listed, currentUnready := job :: scan.currentUnready }

/-- The next call of `_refresh_discovery_index`. A listing ends only when it
has yielded all that was there from its beginning to its end. -/
def advance (s : State) : State :=
  match s.phase with
  | .idle =>
    if (s.spool.rootMtime : Int) ≠ s.index.rootMtime then
      { s with phase := .openRoot s.spool.rootMtime }
    else { s with phase := .devices s.index.deviceMtimes }
  | .openRoot facts => { s with phase := .rootScan facts s.spool.devices [] }
  | .rootScan facts begun discovered =>
    if ∀ device ∈ begun, device ∈ discovered then
      let index := s.index.rootScanned facts discovered
      { s with index, phase := .devices index.deviceMtimes }
    else s
  | .devices [] => { s with phase := .unready s.index.unreadyJobs }
  | .devices ((device, previousMtime) :: todo) =>
    if device ∈ s.spool.devices ∧ (s.spool.deviceMtime device : Int) ≠ previousMtime then
      { s with phase := .openDevice device todo }
    else { s with phase := .devices todo }
  | .openDevice device todo =>
    let entries := s.spool.entries.filter fun job => job.device == device
    { s with phase := .scanDevice { device, begun := entries, possible := entries } todo }
  | .scanDevice scan todo =>
    if ∀ job ∈ scan.begun, job ∈ s.spool.entries → job ∈ scan.listed then
      { s with index := s.index.deviceScanned scan, phase := .recordMtime scan.device todo }
    else s
  | .recordMtime device todo =>
    { s with
      index := s.index.recorded device (s.spool.deviceMtime device)
      phase := .devices todo }
  | .unready [] => { s with phase := .idle, refreshes := s.refreshes + 1 }
  | .unready (job :: todo) =>
    { s with index := s.index.rechecked s.spool job, phase := .unready todo }

/-- The scan of the root yields a device. -/
def listDevice (s : State) (device : String) : State :=
  match s.phase with
  | .rootScan facts begun discovered =>
    if device ∈ s.spool.devices ∧ device ∉ discovered then
      { s with phase := .rootScan facts begun (device :: discovered) }
    else s
  | _ => s

/-- The scan of a device yields a name. One that is gone when it is resolved
ends the refresh with an exception. -/
def listJob (s : State) (job : JobDir) : State :=
  match s.phase with
  | .scanDevice scan todo =>
    if job ∈ scan.possible ∧ job ∉ scan.listed then
      if job ∈ s.spool.entries then { s with phase := .scanDevice (scan.list s.spool job) todo }
      else { s with phase := .idle, refreshes := s.refreshes + 1 }
    else s
  | _ => s

/-- A scan that is under way may yield what appears now. -/
def Phase.notice (phase : Phase) (spool : Spool) (job : JobDir) : Phase :=
  match phase with
  | .scanDevice scan todo =>
    if job.device = scan.device ∧ job ∈ spool.entries then
      .scanDevice { scan with possible := job :: scan.possible } todo
    else phase
  | _ => phase

inductive Action where
  | makeDevice (device : String) (tick : Nat)
  | makePartial (device job : String) (tick : Nat)
  | rename (device job : String) (tick : Nat)
  | publishReady (device job : String)
  | advance
  | listDevice (device : String)
  | listJob (job : JobDir)

def step (s : State) : Action → State
  | .makeDevice device tick => { s with spool := s.spool.makeDevice device tick }
  | .makePartial device job tick =>
    let spool := s.spool.makePartial device job tick
    { s with spool, phase := s.phase.notice spool ⟨device, .partialPath job⟩ }
  | .rename device job tick =>
    let spool := s.spool.rename device job tick
    { s with spool, phase := s.phase.notice spool ⟨device, .finalPath job⟩ }
  | .publishReady device job => { s with spool := s.spool.publishReady device job }
  | .advance => advance s
  | .listDevice device => listDevice s device
  | .listJob job => listJob s job

def run (s : State) (actions : List Action) : State := actions.foldl step s

end RetailPrintGuard.Ingestion.Discovery
