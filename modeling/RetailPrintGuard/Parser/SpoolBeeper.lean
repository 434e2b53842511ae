import RetailPrintGuard.Library.Table
import RetailPrintGuard.Parser.Beeper
import RetailPrintGuard.Parser.BeeperDispatch

/-! # The watcher of the spool

The directories the proxies are still writing are scanned over and over, and a
complete order among them rings the bell before its job is published. -/
namespace RetailPrintGuard.Parser.SpoolBeeper
open RetailPrintGuard.Common.Amounts
open RetailPrintGuard.Library RetailPrintGuard.Library.Checks
open RetailPrintGuard.Parser.Beeper RetailPrintGuard.Parser.BeeperDispatch
open RetailPrintGuard.Parser.Documents (Bytes)
open RetailPrintGuard.Parser.Escpos (maxInputBytes)

/-- `_MAX_DEVICE_ENTRIES` -/
def maxDeviceEntries : Nat := 512

/-- What stands at the path of `client.raw`. -/
inductive RawFile where
  | missing
  /-- a link, a directory or a socket -/
  | special (size : Nat)
  /-- a file whose bytes cannot be read -/
  | broken (size : Nat)
  | file (content : Bytes)

/-- `st_size` -/
def RawFile.size : RawFile → Option Nat
  | .missing => none
  | .special size => some size
  | .broken size => some size
  | .file content => some content.length

structure Entry where
  name : String
  /-- a directory, and no link to one -/
  isDirectory : Bool
  clientRaw : RawFile

/-- A directory, in the order in which it is listed. -/
abbrev Directory := Table Entry Entry.name

/-- What stands at the path of a device. -/
inductive DeviceRoot where
  /-- nothing, a link or a file -/
  | absent
  /-- it cannot be listed -/
  | failed
  | listed (directory : Directory)

abbrev Spool := String → DeviceRoot

/-- A device and the name of an entry. -/
abbrev JobPath := String × String

/-- What is raised and is no `OSError`. -/
inductive ScanError where
  | classification (raised : Raised)
  | refused (message : String)
  deriving DecidableEq

/-- `PosCommandBeeper`: the answer to an event, and the beeper after it. -/
abbrev PosCommandBeeper (σ : Type) := σ → String → String → Except String (Bool × σ)

structure Watcher where
  deviceIds : List String
  maximumInputBytes : Nat
  observedSizes : List (JobPath × Nat) := []
  notified : List JobPath := []
  deriving DecidableEq

/-- `PosSpoolBeeperWatcher.__init__` -/
def openWatcher (absolute : Bool) (deviceIds : List String) (pollSeconds : Rat)
    (maximumInputBytes : Nat) : Except String Watcher := do
  raiseIf (absolute = false) "beeper spool root must be absolute"
  raiseIf (¬ (1 / 20 ≤ pollSeconds ∧ pollSeconds ≤ 1))
    "beeper spool poll interval must be between 0.05 and 1 seconds"
  raiseIf (¬ (1 ≤ maximumInputBytes ∧ maximumInputBytes ≤ maxInputBytes))
    "beeper spool input bound is invalid"
  let normalizedIds := deviceIds.eraseDups
  raiseIf (normalizedIds = []) "beeper spool watcher requires selected POS devices"
  return { deviceIds := normalizedIds, maximumInputBytes }

structure Submission where
  deviceId : String
  eventId : String
  accepted : Bool

/-- A scan under way. -/
structure Scan (σ : Type) where
  observedSizes : List (JobPath × Nat)
  notified : List JobPath
  beeper : σ
  submitted : List Submission := []

def Scan.note {σ : Type} (scan : Scan σ) (jobPath : JobPath) (size : Nat) : Scan σ :=
  { scan with observedSizes := (jobPath, size) :: scan.observedSizes }

/-- How the reading of a file ends. -/
inductive Reading where
  | nothing
  | osError
  | payload (content : Bytes)

/-- `_read_growing_regular_file` -/
def readGrowingRegularFile (maximum : Nat) : RawFile → Reading
  | .missing => .nothing
  | .special _ => .nothing
  | .broken size => if 1 ≤ size ∧ size ≤ maximum then .osError else .nothing
  | .file content =>
    if 1 ≤ content.length ∧ content.length ≤ maximum then .payload content else .nothing

section
variable {σ : Type} (beeper : PosCommandBeeper σ) (maximum : Nat)

/-- A complete command is submitted, and noted once it is accepted. -/
def submit (deviceId name : String) (scan : Scan σ) : Except ScanError (Scan σ) :=
  let eventId := removeSuffix name ".partial"
  match beeper scan.beeper deviceId eventId with
  | .error message => .error (.refused message)
  | .ok (accepted, beeper) => .ok { scan with
      beeper
      submitted := scan.submitted ++ [{ deviceId, eventId, accepted }]
      notified := if accepted then (deviceId, name) :: scan.notified else scan.notified }

/-- A candidate of `_scan_device`, and whether its file could be read. -/
def lookAt (deviceId : String) (scan : Scan σ) (entry : Entry) :
    Except ScanError (Scan σ × Bool) :=
  let jobPath := (deviceId, entry.name)
  if scan.notified.contains jobPath then .ok (scan, true)
  else
    match entry.clientRaw.size with
    | none => .ok (scan, true)
    | some size =>
      if scan.observedSizes.lookup jobPath = some size then .ok (scan, true)
      else
        let scan := scan.note jobPath size
        match readGrowingRegularFile maximum entry.clientRaw with
        | .nothing => .ok (scan, true)
        | .osError => .ok (scan, false)
        | .payload payload =>
          match isCompletePosCommand .cp858 payload with
          | .error raised => .error (.classification raised)
          | .ok false => .ok (scan, true)
          | .ok true => do return (← submit beeper deviceId entry.name scan, true)

/-- The candidates up to the first that cannot be read. -/
def lookAll (deviceId : String) : Scan σ → List Entry → Except ScanError (Scan σ × Bool)
  | scan, [] => .ok (scan, true)
  | scan, entry :: rest => do
    let (scan, readable) ← lookAt beeper maximum deviceId scan entry
    if readable then lookAll deviceId scan rest else return (scan, false)

def isPartial (entry : Entry) : Bool :=
  ".partial".toList.isSuffixOf entry.name.toList && entry.isDirectory

/-- The partial directories among the first entries. -/
def candidates (directory : Directory) : Directory where
  rows := (directory.rows.take maxDeviceEntries).filter isPartial
  primaryKey := directory.primaryKey.sublist
    ((List.filter_sublist.trans (List.take_sublist _ _)).map _)

/-- `_scan_device`: nothing is active after an `OSError`. -/
def scanDevice (spool : Spool) (scan : Scan σ) (deviceId : String) :
    Except ScanError (Scan σ × List JobPath) :=
  match spool deviceId with
  | .absent => .ok (scan, [])
  | .failed => .ok (scan, [])
  | .listed directory => do
    let (scan, readable) ← lookAll beeper maximum deviceId scan (candidates directory).rows
    return (scan, if readable then
      (candidates directory).rows.map fun entry => (deviceId, entry.name) else [])

/-- The loop of `scan_once`. -/
def scanDevices (spool : Spool) : Scan σ → List String → Except ScanError (Scan σ × List JobPath)
  | scan, [] => .ok (scan, [])
  | scan, deviceId :: rest => do
    let (scan, active) ← scanDevice beeper maximum spool scan deviceId
    let (scan, others) ← scanDevices spool scan rest
    return (scan, active ++ others)

end

/-- What `scan_once` leaves. -/
structure Scanned (σ : Type) where
  watcher : Watcher
  beeper : σ
  submitted : List Submission

/-- `PosSpoolBeeperWatcher.scan_once` -/
def scanOnce {σ : Type} (beeper : PosCommandBeeper σ) (watcher : Watcher) (spool : Spool)
    (state : σ) : Except ScanError (Scanned σ) := do
  let (scan, active) ← scanDevices beeper watcher.maximumInputBytes spool
    { observedSizes := watcher.observedSizes, notified := watcher.notified, beeper := state }
    watcher.deviceIds
  return {
    watcher := { watcher with
      observedSizes := scan.observedSizes.filter fun (path, _) => active.contains path
      notified := scan.notified.filter active.contains }
    beeper := scan.beeper
    submitted := scan.submitted }

/-- Scans of a spool that changes, whatever the beeper answers: the last one first. -/
inductive Scans {σ : Type} (beeper : PosCommandBeeper σ) :
    List Spool → Watcher → List Submission → Prop where
  | opened {absolute : Bool} {deviceIds : List String} {pollSeconds : Rat}
      {maximumInputBytes : Nat} {watcher : Watcher} :
      openWatcher absolute deviceIds pollSeconds maximumInputBytes = .ok watcher →
      Scans beeper [] watcher []
  | scanned {spools : List Spool} {watcher : Watcher} {submitted : List Submission}
      {spool : Spool} {state : σ} {result : Scanned σ} :
      Scans beeper spools watcher submitted → scanOnce beeper watcher spool state = .ok result →
      Scans beeper (spool :: spools) result.watcher (submitted ++ result.submitted)

/-! ## One job -/

section
variable {σ : Type} {beeper : PosCommandBeeper σ} {maximum size : Nat} {deviceId name : String}
variable {scan scan' : Scan σ} {entry : Entry} {entries : List Entry} {readable : Bool}
variable {spool : Spool} {path : JobPath} {payload : Bytes}

/-- The ways in which a scan goes past a job. -/
inductive Look (beeper : PosCommandBeeper σ) (maximum : Nat) (deviceId : String) (scan : Scan σ)
    (entry : Entry) : Scan σ → Bool → Prop where
  | known : ((deviceId, entry.name) ∈ scan.notified ∨ ∀ size, entry.clientRaw.size = some size →
      scan.observedSizes.lookup (deviceId, entry.name) = some size) →
      Look beeper maximum deviceId scan entry scan true
  | silent {size : Nat} {readable : Bool} : entry.clientRaw.size = some size →
      (readable = false → readGrowingRegularFile maximum entry.clientRaw = .osError) →
      (∀ payload, readGrowingRegularFile maximum entry.clientRaw = .payload payload →
        isCompletePosCommand .cp858 payload = .ok false) →
      Look beeper maximum deviceId scan entry (scan.note (deviceId, entry.name) size) readable
  | submitted {size : Nat} {scan' : Scan σ} : entry.clientRaw.size = some size →
      submit beeper deviceId entry.name (scan.note (deviceId, entry.name) size) = .ok scan' →
      Look beeper maximum deviceId scan entry scan' true

theorem lookAt_look (h : lookAt beeper maximum deviceId scan entry = .ok (scan', readable)) :
    Look beeper maximum deviceId scan entry scan' readable := by
  unfold lookAt at h
  dsimp only at h
  split at h
  · next hnotified =>
    obtain ⟨rfl, rfl⟩ := Prod.mk.inj (Except.ok.inj h)
    exact .known (Or.inl (List.contains_iff_mem.mp hnotified))
  · split at h
    · next hsize =>
      obtain ⟨rfl, rfl⟩ := Prod.mk.inj (Except.ok.inj h)
      exact .known (Or.inr fun size hsome => by rw [hsize] at hsome; cases hsome)
    · next size hsize =>
      split at h
      · next hsame =>
        obtain ⟨rfl, rfl⟩ := Prod.mk.inj (Except.ok.inj h)
        refine .known (Or.inr fun size' hsome => ?_)
        rw [← Option.some.inj (hsize.symm.trans hsome)]
        exact hsame
      · split at h
        · next hread =>
          obtain ⟨rfl, rfl⟩ := Prod.mk.inj (Except.ok.inj h)
          exact .silent hsize (fun h => by cases h) (fun payload h => by rw [hread] at h; cases h)
        · next hread =>
          obtain ⟨rfl, rfl⟩ := Prod.mk.inj (Except.ok.inj h)
          exact .silent hsize (fun _ => hread) (fun payload h => by rw [hread] at h; cases h)
        · next payload hread =>
          split at h
          · cases h
          · next hsilent =>
            obtain ⟨rfl, rfl⟩ := Prod.mk.inj (Except.ok.inj h)
            refine .silent hsize (fun h => by cases h) (fun payload' h => ?_)
            obtain rfl := Reading.payload.inj (hread.symm.trans h)
            exact hsilent
          · obtain ⟨scan', hsubmit, h⟩ := bind_eq_ok.mp h
            obtain ⟨rfl, rfl⟩ := Prod.mk.inj (pure_eq_ok.mp h)
            exact .submitted hsize hsubmit

/-- The event of a job, with the answer to it. -/
def eventOf (path : JobPath) (accepted : Bool) : Submission :=
  ⟨path.1, removeSuffix path.2 ".partial", accepted⟩

theorem submit_eq (h : submit beeper deviceId name scan = .ok scan') : ∃ accepted : Bool,
    scan'.submitted = scan.submitted ++ [eventOf (deviceId, name) accepted] ∧
      scan'.observedSizes = scan.observedSizes ∧
      scan'.notified = if accepted then (deviceId, name) :: scan.notified else scan.notified := by
  unfold submit at h
  dsimp only at h
  split at h
  · cases h
  · next accepted beeper' _ =>
    obtain rfl := Except.ok.inj h
    exact ⟨accepted, rfl, rfl, rfl⟩

theorem lookup_note : (scan.note path size).observedSizes.lookup path = some size :=
  List.lookup_cons_self

theorem lookup_note_of_ne {other : JobPath} (h : other ≠ path) :
    (scan.note path size).observedSizes.lookup other = scan.observedSizes.lookup other := by
  rw [Scan.note, List.lookup_cons, beq_eq_false_iff_ne.mpr h]

/-! ## A scan -/

/-- The candidate of a job. -/
def listedEntry (spool : Spool) (path : JobPath) : Option Entry :=
  match spool path.1 with
  | .listed directory => (candidates directory).find path.2
  | _ => none

/-- The size a scan sees, if it sees the job and its file. -/
def seenSize (spool : Spool) (path : JobPath) : Option Nat :=
  (listedEntry spool path).bind fun entry => entry.clientRaw.size

/-- What a part of a scan may change. -/
structure Moves (spool : Spool) (scan scan' : Scan σ) : Prop where
  kept : scan.notified ⊆ scan'.notified
  added : ∀ path ∈ scan'.notified, path ∈ scan.notified ∨ eventOf path true ∈ scan'.submitted
  sizes : ∀ path, scan'.observedSizes.lookup path = scan.observedSizes.lookup path ∨
    scan'.observedSizes.lookup path = seenSize spool path
  submitted : scan.submitted ⊆ scan'.submitted

theorem Moves.refl (spool : Spool) (scan : Scan σ) : Moves spool scan scan :=
  ⟨fun _ h => h, fun _ h => Or.inl h, fun _ => Or.inl rfl, fun _ h => h⟩

theorem Moves.trans {next : Scan σ} (h : Moves spool scan scan') (h' : Moves spool scan' next) :
    Moves spool scan next where
  kept := fun _ hin => h'.kept (h.kept hin)
  added := by
    intro path hin
    obtain hin | hnew := h'.added path hin
    · exact (h.added path hin).imp_right fun hnew => h'.submitted hnew
    · exact Or.inr hnew
  sizes := by
    intro path
    obtain heq | heq := h'.sizes path
    · rw [heq]
      exact h.sizes path
    · exact Or.inr heq
  submitted := fun _ hin => h'.submitted (h.submitted hin)

/-- The job is notified, or its size in the spool is noted. -/
def UpToDate (spool : Spool) (scan : Scan σ) (path : JobPath) : Prop :=
  path ∈ scan.notified ∨
    ∀ size, seenSize spool path = some size → scan.observedSizes.lookup path = some size

theorem Moves.upToDate (h : Moves spool scan scan') (hpath : UpToDate spool scan path) :
    UpToDate spool scan' path := by
  obtain hin | hsize := hpath
  · exact Or.inl (h.kept hin)
  · refine Or.inr fun size hseen => ?_
    obtain heq | heq := h.sizes path
    · rw [heq]
      exact hsize size hseen
    · exact heq.trans hseen

theorem Look.moves (h : Look beeper maximum deviceId scan entry scan' readable)
    (hlisted : listedEntry spool (deviceId, entry.name) = some entry) :
    Moves spool scan scan' := by
  have hseen : seenSize spool (deviceId, entry.name) = entry.clientRaw.size := by
    rw [seenSize, hlisted, Option.bind_some]
  have hnote : ∀ {size : Nat}, entry.clientRaw.size = some size →
      Moves spool scan (scan.note (deviceId, entry.name) size) := by
    intro size hsize
    refine ⟨fun _ h => h, fun _ h => Or.inl h, fun path => ?_, fun _ h => h⟩
    obtain rfl | hne := eq_or_ne path (deviceId, entry.name)
    · exact Or.inr (lookup_note.trans (hseen.trans hsize).symm)
    · exact Or.inl (lookup_note_of_ne hne)
  cases h with
  | known _ => exact Moves.refl spool scan
  | silent hsize _ _ => exact hnote hsize
  | submitted hsize hsubmit =>
    obtain ⟨accepted, hsubmitted, hsizes, hnotified⟩ := submit_eq hsubmit
    refine (hnote hsize).trans ⟨?_, ?_, fun _ => Or.inl (by rw [hsizes]), ?_⟩
    · intro path hin
      rw [hnotified]
      split
      · exact List.mem_cons_of_mem _ hin
      · exact hin
    · intro path hin
      rw [hnotified] at hin
      split at hin
      · next haccepted =>
        obtain rfl | hin := List.mem_cons.mp hin
        · rw [hsubmitted, haccepted]
          exact Or.inr List.mem_concat_self
        · exact Or.inl hin
      · exact Or.inl hin
    · rw [hsubmitted]
      exact List.subset_append_left _ _

theorem Look.upToDate (h : Look beeper maximum deviceId scan entry scan' readable)
    (hlisted : listedEntry spool (deviceId, entry.name) = some entry) :
    UpToDate spool scan' (deviceId, entry.name) := by
  have hseen : seenSize spool (deviceId, entry.name) = entry.clientRaw.size := by
    rw [seenSize, hlisted, Option.bind_some]
  have hnote : ∀ {size : Nat}, entry.clientRaw.size = some size → ∀ size',
      seenSize spool (deviceId, entry.name) = some size' →
      (scan.note (deviceId, entry.name) size).observedSizes.lookup (deviceId, entry.name) =
        some size' := by
    intro size hsize size' hsize'
    rw [lookup_note, ← hsize, ← hseen, hsize']
  cases h with
  | known hknown =>
    unfold UpToDate
    rw [hseen]
    exact hknown
  | silent hsize _ _ => exact Or.inr (hnote hsize)
  | submitted hsize hsubmit =>
    obtain ⟨_, -, hsizes, -⟩ := submit_eq hsubmit
    refine Or.inr fun size' hsize' => ?_
    rw [hsizes]
    exact hnote hsize size' hsize'

/-! ## The devices -/

theorem listedEntry_eq {directory : Directory} (hroot : spool deviceId = .listed directory)
    (hin : entry ∈ candidates directory) :
    listedEntry spool (deviceId, entry.name) = some entry := by
  rw [listedEntry, hroot]
  exact Table.find_eq_some.mpr ⟨hin, rfl⟩

theorem lookAll_moves (hlisted : ∀ entry ∈ entries,
      listedEntry spool (deviceId, entry.name) = some entry)
    (h : lookAll beeper maximum deviceId scan entries = .ok (scan', readable)) :
    Moves spool scan scan' := by
  induction entries generalizing scan with
  | nil =>
    obtain ⟨rfl, -⟩ := Prod.mk.inj (Except.ok.inj h)
    exact Moves.refl spool scan
  | cons entry entries ih =>
    obtain ⟨⟨mid, go⟩, hlook, h⟩ := bind_eq_ok.mp h
    have hmoves := (lookAt_look hlook).moves (hlisted entry List.mem_cons_self)
    cases go with
    | true => exact hmoves.trans (ih (fun e he => hlisted e (List.mem_cons_of_mem _ he)) h)
    | false =>
      obtain ⟨rfl, -⟩ := Prod.mk.inj (pure_eq_ok.mp h)
      exact hmoves

theorem lookAll_upToDate (hlisted : ∀ entry ∈ entries,
      listedEntry spool (deviceId, entry.name) = some entry)
    (h : lookAll beeper maximum deviceId scan entries = .ok (scan', true)) :
    ∀ entry ∈ entries, UpToDate spool scan' (deviceId, entry.name) := by
  induction entries generalizing scan with
  | nil => exact fun _ hin => absurd hin List.not_mem_nil
  | cons entry entries ih =>
    obtain ⟨⟨mid, go⟩, hlook, hgo⟩ := bind_eq_ok.mp h
    cases go with
    | false => cases (Prod.mk.inj (pure_eq_ok.mp hgo)).2
    | true =>
      have hrest := fun e he => hlisted e (List.mem_cons_of_mem _ he)
      have hfirst := (lookAt_look hlook).upToDate (hlisted entry List.mem_cons_self)
      rw [List.forall_mem_cons]
      exact ⟨(lookAll_moves hrest hgo).upToDate hfirst, ih hrest hgo⟩

variable {active : List JobPath} {deviceIds : List String}

theorem scanDevice_moves (h : scanDevice beeper maximum spool scan deviceId = .ok (scan', active)) :
    Moves spool scan scan' ∧ ∀ path ∈ active,
      (listedEntry spool path).isSome ∧ UpToDate spool scan' path := by
  unfold scanDevice at h
  split at h
  · obtain ⟨rfl, rfl⟩ := Prod.mk.inj (Except.ok.inj h)
    exact ⟨Moves.refl spool scan, fun _ hin => absurd hin List.not_mem_nil⟩
  · obtain ⟨rfl, rfl⟩ := Prod.mk.inj (Except.ok.inj h)
    exact ⟨Moves.refl spool scan, fun _ hin => absurd hin List.not_mem_nil⟩
  · next directory hroot =>
    obtain ⟨⟨mid, readable⟩, hall, h⟩ := bind_eq_ok.mp h
    obtain ⟨rfl, rfl⟩ := Prod.mk.inj (pure_eq_ok.mp h)
    have hlisted := fun entry => @listedEntry_eq deviceId entry spool directory hroot
    refine ⟨lookAll_moves hlisted hall, fun path hin => ?_⟩
    cases readable with
    | false => cases hin
    | true =>
      obtain ⟨entry, hentry, rfl⟩ := List.mem_map.mp hin
      rw [hlisted entry hentry]
      exact ⟨rfl, lookAll_upToDate hlisted hall entry hentry⟩

theorem scanDevices_moves
    (h : scanDevices beeper maximum spool scan deviceIds = .ok (scan', active)) :
    Moves spool scan scan' ∧ ∀ path ∈ active,
      (listedEntry spool path).isSome ∧ UpToDate spool scan' path := by
  induction deviceIds generalizing scan active with
  | nil =>
    obtain ⟨rfl, rfl⟩ := Prod.mk.inj (Except.ok.inj h)
    exact ⟨Moves.refl spool scan, fun _ hin => absurd hin List.not_mem_nil⟩
  | cons deviceId deviceIds ih =>
    obtain ⟨⟨mid, first⟩, hfirst, h⟩ := bind_eq_ok.mp h
    obtain ⟨⟨last, others⟩, hothers, h⟩ := bind_eq_ok.mp h
    obtain ⟨rfl, rfl⟩ := Prod.mk.inj (pure_eq_ok.mp h)
    obtain ⟨hmoves, hactive⟩ := scanDevice_moves hfirst
    obtain ⟨hrest, hactives⟩ := ih hothers
    refine ⟨hmoves.trans hrest, fun path hin => ?_⟩
    obtain hin | hin := List.mem_append.mp hin
    · obtain ⟨hsome, hupToDate⟩ := hactive path hin
      exact ⟨hsome, hrest.upToDate hupToDate⟩
    · exact hactives path hin

/-! ## The scans -/

/-- The size the last scan that saw the file saw, if the job was listed since. -/
def lastSize (path : JobPath) : List Spool → Option Nat
  | [] => none
  | spool :: earlier =>
    match listedEntry spool path with
    | none => none
    | some entry => entry.clientRaw.size.orElse fun _ => lastSize path earlier

/-- What the watcher keeps of the scans. -/
structure Follows (spools : List Spool) (watcher : Watcher) (submitted : List Submission) : Prop where
  notified : ∀ path ∈ watcher.notified, eventOf path true ∈ submitted
  sizes : ∀ path size, watcher.observedSizes.lookup path = some size →
    path ∈ watcher.notified ∨ lastSize path spools = some size

theorem lookup_filter {observed : List (JobPath × Nat)} {kept : JobPath → Bool}
    (h : (observed.filter fun (path, _) => kept path).lookup path = some size) :
    kept path = true ∧ observed.lookup path = some size := by
  induction observed with
  | nil => cases h
  | cons head observed ih =>
    obtain ⟨other, noted⟩ := head
    rw [List.lookup_cons]
    rw [List.filter_cons] at h
    obtain rfl | hne := eq_or_ne path other
    · rw [beq_self_eq_true]
      dsimp only at h ⊢
      split at h
      · next hkept =>
        rw [List.lookup_cons_self] at h
        exact ⟨hkept, h⟩
      · next hdropped => exact absurd (ih h).1 hdropped
    · rw [beq_eq_false_iff_ne.mpr hne]
      dsimp only at h ⊢
      split at h
      · rw [List.lookup_cons, beq_eq_false_iff_ne.mpr hne] at h
        exact ih h
      · exact ih h

variable {spools : List Spool} {watcher watcher' : Watcher} {submitted : List Submission}
variable {state : σ} {result : Scanned σ}

theorem scanOnce_eq (h : scanOnce beeper watcher spool state = .ok result) : ∃ scan active,
    scanDevices beeper watcher.maximumInputBytes spool
        { observedSizes := watcher.observedSizes, notified := watcher.notified, beeper := state }
        watcher.deviceIds = .ok (scan, active) ∧
      result = ⟨{ watcher with
        observedSizes := scan.observedSizes.filter fun (path, _) => active.contains path
        notified := scan.notified.filter active.contains }, scan.beeper, scan.submitted⟩ := by
  obtain ⟨⟨scan, active⟩, hscan, h⟩ := bind_eq_ok.mp h
  exact ⟨scan, active, hscan, (pure_eq_ok.mp h).symm⟩

theorem Follows.scanOnce (hfollows : Follows spools watcher submitted)
    (h : scanOnce beeper watcher spool state = .ok result) :
    Follows (spool :: spools) result.watcher (submitted ++ result.submitted) := by
  obtain ⟨scan, active, hscan, rfl⟩ := scanOnce_eq h
  obtain ⟨hmoves, hactive⟩ := scanDevices_moves hscan
  constructor
  · intro path hin
    obtain hold | hnew := hmoves.added path (List.mem_of_mem_filter hin)
    · exact List.mem_append_left _ (hfollows.notified path hold)
    · exact List.mem_append_right _ hnew
  · intro path size hlookup
    obtain ⟨hkept, hlookup⟩ := lookup_filter hlookup
    obtain ⟨hsome, hupToDate⟩ := hactive path (List.contains_iff_mem.mp hkept)
    obtain ⟨entry, hentry⟩ := Option.isSome_iff_exists.mp hsome
    have hseen : seenSize spool path = entry.clientRaw.size := by
      rw [seenSize, hentry, Option.bind_some]
    obtain hin | hsizes := hupToDate
    · exact Or.inl (List.mem_filter.mpr ⟨hin, hkept⟩)
    · rw [lastSize, hentry]
      dsimp only
      cases hsize : entry.clientRaw.size with
      | some now =>
        -- the size is the one the scan saw
        rw [← hlookup, hsizes now (hseen.trans hsize)]
        exact Or.inr rfl
      | none =>
        obtain heq | heq := hmoves.sizes path
        · obtain hold | hlast := hfollows.sizes path size (heq.symm.trans hlookup)
          · exact Or.inl (List.mem_filter.mpr ⟨hmoves.kept hold, hkept⟩)
          · exact Or.inr hlast
        · rw [hlookup, hseen, hsize] at heq
          cases heq

theorem Scans.follows (h : Scans beeper spools watcher submitted) :
    Follows spools watcher submitted := by
  induction h with
  | opened hopened =>
    obtain ⟨_, -, h⟩ := bind_eq_ok.mp hopened
    obtain ⟨_, -, h⟩ := bind_eq_ok.mp h
    obtain ⟨_, -, h⟩ := bind_eq_ok.mp h
    obtain ⟨_, -, h⟩ := bind_eq_ok.mp h
    rw [← pure_eq_ok.mp h]
    exact ⟨fun _ hin => absurd hin List.not_mem_nil, fun _ _ hlookup => by cases hlookup⟩
  | scanned _ hscan ih => exact ih.scanOnce hscan

/-! ## A complete session -/

/-- A complete command within the bound on the input. -/
def CompleteSession (maximum : Nat) (entry : Entry) : Prop :=
  ∃ payload, entry.clientRaw = .file payload ∧ 1 ≤ payload.length ∧ payload.length ≤ maximum ∧
    isCompletePosCommand .cp858 payload = .ok true

def Submitted (scan : Scan σ) (path : JobPath) : Prop :=
  ∃ accepted, eventOf path accepted ∈ scan.submitted

/-- The event is submitted, or nothing keeps the scan from it. -/
def Pending (scan : Scan σ) (path : JobPath) (size : Option Nat) : Prop :=
  Submitted scan path ∨ path ∉ scan.notified ∧ scan.observedSizes.lookup path ≠ size

theorem Look.submitted_of_complete
    (h : Look beeper maximum deviceId scan entry scan' readable)
    (hcomplete : CompleteSession maximum entry)
    (hpending : Pending scan (deviceId, entry.name) entry.clientRaw.size)
    (hlisted : listedEntry spool (deviceId, entry.name) = some entry) :
    Submitted scan' (deviceId, entry.name) := by
  obtain ⟨accepted, hin⟩ | ⟨hnotified, hsize⟩ := hpending
  · exact ⟨accepted, (h.moves hlisted).submitted hin⟩
  · obtain ⟨payload, hraw, hsome, hbound, hrings⟩ := hcomplete
    have hread : readGrowingRegularFile maximum entry.clientRaw = .payload payload := by
      rw [hraw]
      exact if_pos ⟨hsome, hbound⟩
    cases h with
    | known hknown =>
      obtain hin | hsame := hknown
      · exact absurd hin hnotified
      · rw [hraw] at hsame hsize
        exact absurd (hsame payload.length rfl) hsize
    | silent _ _ hsilent =>
      rw [hsilent payload hread] at hrings
      cases hrings
    | submitted _ hsubmit =>
      obtain ⟨accepted, hsubmitted, -, -⟩ := submit_eq hsubmit
      rw [Submitted, hsubmitted]
      exact ⟨accepted, List.mem_concat_self⟩

/-- What is done with a job changes nothing for another. -/
theorem Look.other (h : Look beeper maximum deviceId scan entry scan' readable)
    (hne : path ≠ (deviceId, entry.name)) : (path ∈ scan'.notified → path ∈ scan.notified) ∧
      scan'.observedSizes.lookup path = scan.observedSizes.lookup path := by
  cases h with
  | known _ => exact ⟨id, rfl⟩
  | silent _ _ _ => exact ⟨id, lookup_note_of_ne hne⟩
  | submitted _ hsubmit =>
    obtain ⟨accepted, -, hsizes, hnotified⟩ := submit_eq hsubmit
    refine ⟨fun hin => ?_, by rw [hsizes, lookup_note_of_ne hne]⟩
    rw [hnotified] at hin
    split at hin
    · exact (List.mem_cons.mp hin).resolve_left hne
    · exact hin

theorem Look.pending {target : Entry}
    (h : Look beeper maximum deviceId scan entry scan' readable)
    (htarget : listedEntry spool path = some target) (hcomplete : CompleteSession maximum target)
    (hlisted : listedEntry spool (deviceId, entry.name) = some entry)
    (hpending : Pending scan path target.clientRaw.size) :
    Pending scan' path target.clientRaw.size := by
  obtain rfl | hne := eq_or_ne path (deviceId, entry.name)
  · obtain rfl := Option.some.inj (htarget.symm.trans hlisted)
    exact Or.inl (h.submitted_of_complete hcomplete hpending hlisted)
  · obtain ⟨accepted, hin⟩ | ⟨hnotified, hsize⟩ := hpending
    · exact Or.inl ⟨accepted, (h.moves hlisted).submitted hin⟩
    · obtain ⟨hback, hsame⟩ := h.other hne
      exact Or.inr ⟨fun hin => hnotified (hback hin), by rwa [hsame]⟩

theorem Look.reads (h : Look beeper maximum deviceId scan entry scan' readable)
    (hread : ∀ size, entry.clientRaw ≠ .broken size) : readable = true := by
  cases h with
  | known _ => rfl
  | submitted _ _ => rfl
  | silent _ herror _ =>
    cases readable with
    | true => rfl
    | false =>
      have herror := herror rfl
      cases hraw : entry.clientRaw with
      | broken size => exact absurd hraw (hread size)
      | missing => rw [hraw] at herror; cases herror
      | special size => rw [hraw] at herror; cases herror
      | file payload =>
        rw [hraw, readGrowingRegularFile] at herror
        split at herror <;> cases herror

section
variable {target : Entry} (htarget : listedEntry spool path = some target)
    (hcomplete : CompleteSession maximum target)
include htarget hcomplete

theorem lookAll_pending (hlisted : ∀ entry ∈ entries,
      listedEntry spool (deviceId, entry.name) = some entry)
    (h : lookAll beeper maximum deviceId scan entries = .ok (scan', readable))
    (hpending : Pending scan path target.clientRaw.size) :
    Pending scan' path target.clientRaw.size := by
  induction entries generalizing scan with
  | nil =>
    obtain ⟨rfl, -⟩ := Prod.mk.inj (Except.ok.inj h)
    exact hpending
  | cons entry entries ih =>
    obtain ⟨⟨mid, go⟩, hlook, hgo⟩ := bind_eq_ok.mp h
    have hmid := (lookAt_look hlook).pending htarget hcomplete
      (hlisted entry List.mem_cons_self) hpending
    cases go with
    | true => exact ih (fun e he => hlisted e (List.mem_cons_of_mem _ he)) hgo hmid
    | false =>
      obtain ⟨rfl, -⟩ := Prod.mk.inj (pure_eq_ok.mp hgo)
      exact hmid

theorem lookAll_submitted (hlisted : ∀ entry ∈ entries,
      listedEntry spool (deviceId, entry.name) = some entry)
    (hread : ∀ entry ∈ entries, ∀ size, entry.clientRaw ≠ .broken size)
    (hin : target ∈ entries) (hpath : path = (deviceId, target.name))
    (h : lookAll beeper maximum deviceId scan entries = .ok (scan', readable))
    (hpending : Pending scan path target.clientRaw.size) : Submitted scan' path := by
  induction entries generalizing scan with
  | nil => cases hin
  | cons entry entries ih =>
    obtain ⟨⟨mid, go⟩, hlook, hgo⟩ := bind_eq_ok.mp h
    have hlook := lookAt_look hlook
    have hfirst := hlisted entry List.mem_cons_self
    have hrest := fun e he => hlisted e (List.mem_cons_of_mem _ he)
    obtain rfl := hlook.reads (hread entry List.mem_cons_self)
    obtain rfl | hin := List.mem_cons.mp hin
    · subst hpath
      obtain ⟨accepted, hsubmitted⟩ := hlook.submitted_of_complete hcomplete hpending hfirst
      exact ⟨accepted, (lookAll_moves hrest hgo).submitted hsubmitted⟩
    · exact ih hrest (fun e he => hread e (List.mem_cons_of_mem _ he)) hin hgo
        (hlook.pending htarget hcomplete hfirst hpending)

theorem scanDevice_pending
    (h : scanDevice beeper maximum spool scan deviceId = .ok (scan', active))
    (hpending : Pending scan path target.clientRaw.size) :
    Pending scan' path target.clientRaw.size := by
  unfold scanDevice at h
  split at h
  · obtain ⟨rfl, -⟩ := Prod.mk.inj (Except.ok.inj h)
    exact hpending
  · obtain ⟨rfl, -⟩ := Prod.mk.inj (Except.ok.inj h)
    exact hpending
  · next directory hroot =>
    obtain ⟨⟨mid, readable⟩, hall, h⟩ := bind_eq_ok.mp h
    obtain ⟨rfl, -⟩ := Prod.mk.inj (pure_eq_ok.mp h)
    exact lookAll_pending htarget hcomplete (fun entry => listedEntry_eq hroot) hall hpending

theorem scanDevice_submitted {directory : Directory} (hroot : spool deviceId = .listed directory)
    (hread : ∀ entry ∈ candidates directory, ∀ size, entry.clientRaw ≠ .broken size)
    (hin : target ∈ candidates directory) (hpath : path = (deviceId, target.name))
    (h : scanDevice beeper maximum spool scan deviceId = .ok (scan', active))
    (hpending : Pending scan path target.clientRaw.size) : Submitted scan' path := by
  unfold scanDevice at h
  rw [hroot] at h
  obtain ⟨⟨mid, readable⟩, hall, h⟩ := bind_eq_ok.mp h
  obtain ⟨rfl, -⟩ := Prod.mk.inj (pure_eq_ok.mp h)
  exact lookAll_submitted htarget hcomplete (fun entry => listedEntry_eq hroot) hread hin hpath
    hall hpending

theorem scanDevices_submitted {directory : Directory} (hroot : spool deviceId = .listed directory)
    (hread : ∀ entry ∈ candidates directory, ∀ size, entry.clientRaw ≠ .broken size)
    (hin : target ∈ candidates directory) (hpath : path = (deviceId, target.name))
    (hdevice : deviceId ∈ deviceIds)
    (h : scanDevices beeper maximum spool scan deviceIds = .ok (scan', active))
    (hpending : Pending scan path target.clientRaw.size) : Submitted scan' path := by
  induction deviceIds generalizing scan active with
  | nil => cases hdevice
  | cons first deviceIds ih =>
    obtain ⟨⟨mid, _⟩, hfirst, h⟩ := bind_eq_ok.mp h
    obtain ⟨⟨last, _⟩, hothers, h⟩ := bind_eq_ok.mp h
    obtain ⟨rfl, -⟩ := Prod.mk.inj (pure_eq_ok.mp h)
    obtain rfl | hdevice := List.mem_cons.mp hdevice
    · obtain ⟨accepted, hsubmitted⟩ := scanDevice_submitted htarget hcomplete hroot hread hin hpath
        hfirst hpending
      exact ⟨accepted, (scanDevices_moves hothers).1.submitted hsubmitted⟩
    · exact ih hdevice hothers (scanDevice_pending htarget hcomplete hfirst hpending)

end

/-- A session that waits for its bell, in a directory whose files can be read. -/
structure Awaits (watcher : Watcher) (submitted : List Submission) (spool : Spool)
    (deviceId : String) (directory : Directory) (entry : Entry) : Prop where
  watched : deviceId ∈ watcher.deviceIds
  listed : spool deviceId = .listed directory
  readable : ∀ other ∈ candidates directory, ∀ size, other.clientRaw ≠ .broken size
  here : entry ∈ directory
  session : isPartial entry = true
  complete : CompleteSession watcher.maximumInputBytes entry
  unaccepted : eventOf (deviceId, entry.name) true ∉ submitted

/-- A scan submits every complete session among the first entries of a directory,
unless the scan before it saw the same size. -/
theorem complete_session_submitted {σ : Type} (beeper : PosCommandBeeper σ) (spools : List Spool)
    (watcher : Watcher) (submitted : List Submission) (spool : Spool) (state : σ)
    (result : Scanned σ) (deviceId : String) (directory : Directory) (entry : Entry)
    (hscans : Scans beeper spools watcher submitted)
    (hscan : SpoolBeeper.scanOnce beeper watcher spool state = .ok result)
    (hawaits : Awaits watcher submitted spool deviceId directory entry)
    (hfirst : entry ∈ directory.rows.take maxDeviceEntries)
    (hgrown : lastSize (deviceId, entry.name) spools ≠ entry.clientRaw.size) :
    ∃ accepted, eventOf (deviceId, entry.name) accepted ∈ result.submitted := by
  have hin : entry ∈ candidates directory := List.mem_filter.mpr ⟨hfirst, hawaits.session⟩
  have htarget := listedEntry_eq hawaits.listed hin
  obtain ⟨scan, active, hdevices, rfl⟩ := scanOnce_eq hscan
  have hnotified : (deviceId, entry.name) ∉ watcher.notified :=
    fun h => hawaits.unaccepted (hscans.follows.notified _ h)
  have hsize : watcher.observedSizes.lookup (deviceId, entry.name) ≠ entry.clientRaw.size := by
    intro hsame
    obtain ⟨payload, hraw, -⟩ := hawaits.complete
    rw [hraw] at hsame hgrown
    obtain h | h := hscans.follows.sizes _ _ hsame
    · exact hnotified h
    · exact hgrown h
  exact scanDevices_submitted htarget hawaits.complete hawaits.listed hawaits.readable hin rfl
    hawaits.watched hdevices (Or.inr ⟨hnotified, hsize⟩)

end

/-- The events go to the dispatcher. -/
def dispatcherBeeper : PosCommandBeeper Dispatcher := fun dispatcher deviceId eventId =>
  enqueue dispatcher deviceId (some eventId)

/-- A dispatcher with room for one trigger. -/
def smallDispatcher (waiting : Nat) : Dispatcher where
  enabled := true
  queueSizePerDevice := 1
  queues := [("pos_2", waiting)]

def openedWatcher : Watcher where
  deviceIds := ["pos_2"]
  maximumInputBytes := maxInputBytes

def sessionEntry (payload : Bytes) : Entry where
  name := "job.partial"
  isDirectory := true
  clientRaw := .file payload

def sessionDirectory (payload : Bytes) : Directory where
  rows := [sessionEntry payload]
  primaryKey := List.nodup_singleton _

def spoolOf (directory : Directory) : Spool := fun deviceId =>
  if deviceId = "pos_2" then .listed directory else .absent

theorem opens_openedWatcher :
    openWatcher true ["pos_2"] (1 / 10) maxInputBytes = .ok openedWatcher := by
  decide +kernel

theorem completeSession_cutOrder :
    CompleteSession maxInputBytes (sessionEntry cutOrder) :=
  ⟨cutOrder, rfl, by decide, by decide, by decide +kernel⟩

theorem awaits_session {watcher : Watcher} {submitted : List Submission}
    (hwatched : watcher.deviceIds = ["pos_2"]) (hmaximum : watcher.maximumInputBytes = maxInputBytes)
    (hunaccepted : ∀ submission ∈ submitted, submission.accepted = false) :
    Awaits watcher submitted (spoolOf (sessionDirectory cutOrder)) "pos_2"
      (sessionDirectory cutOrder) (sessionEntry cutOrder) where
  watched := by rw [hwatched]; exact List.mem_singleton_self _
  listed := rfl
  readable := by
    intro other hin size
    obtain rfl := List.mem_singleton.mp (List.mem_of_mem_take (List.mem_of_mem_filter hin))
    exact fun h => by cases h
  here := List.mem_singleton_self _
  session := by decide
  complete := by rw [hmaximum]; exact completeSession_cutOrder
  unaccepted := fun hin => by cases hunaccepted _ hin

/-- An order grows to its cut between two scans. -/
theorem complete_session_submitted_grown : ∃ first second,
    SpoolBeeper.scanOnce dispatcherBeeper openedWatcher
      (spoolOf (sessionDirectory (cutOrder.take 7))) (smallDispatcher 0) = .ok first ∧
    SpoolBeeper.scanOnce dispatcherBeeper first.watcher (spoolOf (sessionDirectory cutOrder))
      first.beeper = .ok second ∧
    ∃ accepted, eventOf ("pos_2", "job.partial") accepted ∈ second.submitted := by
  have hruns : (do
      let first ← SpoolBeeper.scanOnce dispatcherBeeper openedWatcher
        (spoolOf (sessionDirectory (cutOrder.take 7))) (smallDispatcher 0)
      let _ ← SpoolBeeper.scanOnce dispatcherBeeper first.watcher
        (spoolOf (sessionDirectory cutOrder)) first.beeper
      return first.submitted.map Submission.accepted) = .ok [] := by
    decide +kernel
  obtain ⟨first, hfirst, hruns⟩ := bind_eq_ok.mp hruns
  obtain ⟨second, hsecond, hruns⟩ := bind_eq_ok.mp hruns
  have hempty := List.map_eq_nil_iff.mp (pure_eq_ok.mp hruns)
  obtain ⟨_, _, -, heq⟩ := scanOnce_eq hfirst
  refine ⟨first, second, hfirst, hsecond, ?_⟩
  exact complete_session_submitted dispatcherBeeper _ first.watcher _ _ _ second "pos_2"
    (sessionDirectory cutOrder) (sessionEntry cutOrder)
    ((Scans.opened opens_openedWatcher).scanned hfirst) hsecond
    (awaits_session (by rw [heq]; rfl) (by rw [heq]; rfl) (by rw [hempty]; simp))
    (List.mem_singleton_self _) (by decide)

def publishedJob (n : Nat) : Entry := ⟨String.ofList (List.replicate n 'a'), true, .missing⟩

def publishedJobs : List Entry := (List.range maxDeviceEntries).map publishedJob

/-- As many published jobs as a scan lists, and a session behind them. -/
def crowdedDirectory : Directory where
  rows := publishedJobs ++ [sessionEntry cutOrder]
  primaryKey := by
    rw [publishedJobs, List.map_append, List.map_map, List.nodup_append]
    refine ⟨List.nodup_range.map fun n m h => ?_, List.nodup_singleton _, ?_⟩
    · simpa [publishedJob] using congrArg String.length h
    · intro name hin last hlast heq
      obtain ⟨n, -, rfl⟩ := List.mem_map.mp hin
      have hname : String.ofList (List.replicate n 'a') = "job.partial" :=
        heq.trans (List.mem_singleton.mp hlast)
      have hletter : 'j' ∈ List.replicate n 'a' := by
        rw [← @String.toList_ofList (List.replicate n 'a'), hname]
        decide
      exact absurd (List.eq_of_mem_replicate hletter) (by decide)

theorem mem_crowdedDirectory {entry : Entry} : entry ∈ crowdedDirectory ↔
    entry ∈ publishedJobs ∨ entry = sessionEntry cutOrder := by
  rw [← Table.mem_rows, crowdedDirectory, List.mem_append, List.mem_singleton]

theorem isPartial_publishedJob {entry : Entry} (h : entry ∈ publishedJobs) :
    isPartial entry = false := by
  obtain ⟨n, -, rfl⟩ := List.mem_map.mp h
  rw [isPartial, publishedJob, Bool.and_true, Bool.eq_false_iff]
  dsimp only
  rw [@String.toList_ofList (List.replicate n 'a')]
  intro hsuffix
  rw [List.isSuffixOf_iff_suffix] at hsuffix
  have hletter : 'l' ∈ List.replicate n 'a' := hsuffix.subset (by decide : 'l' ∈ ".partial".toList)
  exact absurd (List.eq_of_mem_replicate hletter) (by decide)

theorem candidates_rows (directory : Directory) : (candidates directory).rows =
    (directory.rows.take maxDeviceEntries).filter isPartial := rfl

/-- The session is not among the entries a scan lists. -/
theorem candidates_crowded : (candidates crowdedDirectory).rows = [] := by
  have hlength : publishedJobs.length = maxDeviceEntries := by
    rw [publishedJobs, List.length_map, List.length_range]
  have htake : crowdedDirectory.rows.take maxDeviceEntries = publishedJobs := by
    rw [crowdedDirectory, ← hlength]
    exact List.take_left
  have hnone : publishedJobs.filter isPartial = [] :=
    List.filter_eq_nil_iff.mpr fun entry hin => by simp [isPartial_publishedJob hin]
  calc (candidates crowdedDirectory).rows
    _ = (crowdedDirectory.rows.take maxDeviceEntries).filter isPartial := candidates_rows _
    _ = publishedJobs.filter isPartial := congrArg (List.filter isPartial) htake
    _ = [] := hnone

theorem awaits_crowded : Awaits openedWatcher [] (spoolOf crowdedDirectory) "pos_2"
    crowdedDirectory (sessionEntry cutOrder) where
  watched := List.mem_singleton_self _
  listed := rfl
  readable := by
    intro other hin
    rw [← Table.mem_rows, candidates_crowded] at hin
    cases hin
  here := mem_crowdedDirectory.mpr (Or.inr rfl)
  session := by decide
  complete := completeSession_cutOrder
  unaccepted := List.not_mem_nil

/-- A session behind many published jobs is not submitted, and neither is one that was
refused and did not grow. -/
theorem complete_session_missed :
    (∃ result, SpoolBeeper.scanOnce dispatcherBeeper openedWatcher (spoolOf crowdedDirectory)
        (smallDispatcher 0) = .ok result ∧ result.submitted = [] ∧
      Awaits openedWatcher [] (spoolOf crowdedDirectory) "pos_2" crowdedDirectory
        (sessionEntry cutOrder)) ∧
    ∃ first second,
      SpoolBeeper.scanOnce dispatcherBeeper openedWatcher (spoolOf (sessionDirectory cutOrder))
        (smallDispatcher 1) = .ok first ∧
      SpoolBeeper.scanOnce dispatcherBeeper first.watcher (spoolOf (sessionDirectory cutOrder))
        (smallDispatcher 0) = .ok second ∧ second.submitted = [] ∧
      Awaits first.watcher first.submitted (spoolOf (sessionDirectory cutOrder)) "pos_2"
        (sessionDirectory cutOrder) (sessionEntry cutOrder) := by
  constructor
  · have hdevice : ∀ scan : Scan Dispatcher, scanDevice dispatcherBeeper maxInputBytes
        (spoolOf crowdedDirectory) scan "pos_2" = .ok (scan, []) := by
      intro scan
      unfold scanDevice
      rw [spoolOf, if_pos rfl]
      dsimp only
      rw [candidates_crowded]
      rfl
    have hrun : SpoolBeeper.scanOnce dispatcherBeeper openedWatcher (spoolOf crowdedDirectory)
        (smallDispatcher 0) = .ok ⟨openedWatcher, smallDispatcher 0, []⟩ := by
      unfold SpoolBeeper.scanOnce openedWatcher
      rw [scanDevices, hdevice]
      rfl
    exact ⟨_, hrun, rfl, awaits_crowded⟩
  · have hruns : (do
        let first ← SpoolBeeper.scanOnce dispatcherBeeper openedWatcher
          (spoolOf (sessionDirectory cutOrder)) (smallDispatcher 1)
        let second ← SpoolBeeper.scanOnce dispatcherBeeper first.watcher
          (spoolOf (sessionDirectory cutOrder)) (smallDispatcher 0)
        return (first.submitted.map Submission.accepted, second.submitted.length)) =
        .ok ([false], 0) := by
      decide +kernel
    obtain ⟨first, hfirst, hruns⟩ := bind_eq_ok.mp hruns
    obtain ⟨second, hsecond, hruns⟩ := bind_eq_ok.mp hruns
    obtain ⟨hrefused, hnone⟩ := Prod.mk.inj (pure_eq_ok.mp hruns)
    obtain ⟨_, _, -, heq⟩ := scanOnce_eq hfirst
    refine ⟨first, second, hfirst, hsecond, List.length_eq_zero_iff.mp hnone, ?_⟩
    refine awaits_session (by rw [heq]; rfl) (by rw [heq]; rfl) fun submission hin => ?_
    have haccepted := List.mem_map_of_mem (f := Submission.accepted) hin
    rw [hrefused] at haccepted
    exact List.mem_singleton.mp haccepted

end RetailPrintGuard.Parser.SpoolBeeper
