import RetailPrintGuard.Library.Checks
import RetailPrintGuard.Proxy.Spool

/-! # Recovery of incomplete directories

A directory without a marker is published once at the next start: with its own
manifest where that can be read, else with a manifest derived from what survived
of its files. -/
namespace RetailPrintGuard.Proxy.Recovery
open RetailPrintGuard.Library RetailPrintGuard.Library.Checks RetailPrintGuard.Common.Formats
open RetailPrintGuard.Proxy.Spool

/-- A job directory as it is found: the files that are there. -/
structure SpoolDirectory where
  deviceId : String
  /-- without the suffix of an unfinished directory -/
  name : String
  isPartial : Bool
  raw : ByDirection (Option Bytes)
  timeline : Option Bytes
  session : Option Bytes
  manifest : Option Bytes
  ready : Option Bytes
  untrusted : List (PyText × Bytes) := []
  /-- what follows the last underscore of the name, where a byte of it is not UTF-8 -/
  undecoded : Option LoneText := none
deriving DecidableEq

/-- `path.name` -/
def SpoolDirectory.fullName (directory : SpoolDirectory) : String :=
  if directory.isPartial then directory.name ++ ".partial" else directory.name

/-- What a recovery reads of the clock and of `uuid4`: the time of a guessed
session, the time of the end, and a name. -/
structure Clock where
  session : String
  closed : String
  unique : String
deriving DecidableEq

/-! ## What reading and writing a value raises -/

inductive PyError where
  | osError | keyError | typeError | valueError | unicodeEncodeError | overflowError
  | attributeError | recursionError
deriving DecidableEq

def PyError.name : PyError → String
  | .osError => "OSError"
  | .keyError => "KeyError"
  | .typeError => "TypeError"
  | .valueError => "ValueError"
  | .unicodeEncodeError => "UnicodeEncodeError"
  | .overflowError => "OverflowError"
  | .attributeError => "AttributeError"
  | .recursionError => "RecursionError"

/-- `except (OSError, ValueError, KeyError, TypeError)`, where a `UnicodeEncodeError`
is a `ValueError` -/
def PyError.handled : PyError → Bool
  | .osError | .keyError | .typeError | .valueError | .unicodeEncodeError => true
  | .overflowError | .attributeError | .recursionError => false

/-- `value[key]` -/
def subscript (value : PyJson) (key : String) : Except PyError PyJson :=
  match value with
  | .obj fields =>
    match (PyJson.obj fields).get? key with
    | some v => .ok v
    | none => .error .keyError
  | _ => .error .typeError

/-- `value.pop(key)`: what is taken out, and the rest. -/
def pop (value : PyJson) (key : String) : Except PyError (PyJson × PyJson) :=
  match value with
  | .obj fields => (subscript (.obj fields) key).map fun v => (v, (PyJson.obj fields).erase key)
  | .arr _ => .error .typeError
  | _ => .error .attributeError

def loaded : Loaded → Except PyError PyJson
  | .value document => .ok document
  | .valueError => .error .valueError
  | .recursionError => .error .recursionError

/-! ## The timeline that survived -/

structure Inspection where
  events : Nat := 0
  dataChunks : ByDirection Nat := .const 0
  eofEvents : ByDirection Nat := .const 0
  coveredBytes : ByDirection Nat := .const 0
  directionSequences : ByDirection Nat := .const 0
  observedSequences : List Int := []
  lastEvent : Option String := none
  integrityOk : Bool := true
deriving DecidableEq

/-- The counters after an event. -/
def Inspection.add (state : Inspection) (kind : String) (direction : Direction) (length : Nat)
    (observedSequence : Int) (eventHash : String) : Inspection :=
  { state with
    events := state.events + 1
    dataChunks :=
      if kind = "data" then state.dataChunks.set direction (state.dataChunks.get direction + 1)
      else state.dataChunks
    eofEvents :=
      if kind = "data" then state.eofEvents
      else state.eofEvents.set direction (state.eofEvents.get direction + 1)
    coveredBytes :=
      if kind = "data" then
        state.coveredBytes.set direction (state.coveredBytes.get direction + length)
      else state.coveredBytes
    directionSequences :=
      state.directionSequences.set direction (state.directionSequences.get direction + 1)
    observedSequences := state.observedSequences ++ [observedSequence]
    lastEvent := some eventHash }

/-- The lines of a binary file, each with its line feed. -/
def rawLines : Bytes → List Bytes
  | [] => []
  | byte :: rest =>
    if byte = newline then [byte] :: rawLines rest
    else
      match rawLines rest with
      | [] => [[byte]]
      | line :: lines => (byte :: line) :: lines

def namedDirection (name : String) : Option Direction :=
  if name = Direction.clientToDevice.value then some .clientToDevice
  else if name = Direction.deviceToClient.value then some .deviceToClient
  else none

section
variable (fmt : Codec)

/-- `str` of a value -/
def strOf : PyJson → Except PyError PyText
  | .str text => .ok text
  | value =>
    if fmt.strTooDeep value = true then .error .recursionError
    else .ok (.text (reprPy value))

/-- `_canonical_json_bytes` -/
def canonicalJsonBytes (value : PyJson) : Except PyError Bytes :=
  if fmt.dumpsTooDeep value = true then .error .recursionError
  else
    match value.toJson? with
    | some document => .ok document.dumps
    | none => .error .unicodeEncodeError

/-- `int` of a value -/
def intOf : PyJson → Except PyError Int
  | .num n => .ok n
  | .bool b => .ok (if b then 1 else 0)
  | .float (.finite text) =>
    .ok ((fmt.floatValue text).num.tdiv (fmt.floatValue text).den)
  | .float (.infinite _) => .error .overflowError
  | .float .nan => .error .valueError
  | .str (.text text) =>
    match fmt.intOfText text with
    | some n => .ok n
    | none => .error .valueError
  | .str (.lone _) => .error .valueError
  | .null | .arr _ | .obj _ => .error .typeError

/-- `int(entry[key])` -/
def intAt (entry : PyJson) (key : String) : Except PyError Int := do
  let value ← subscript entry key
  intOf fmt value

/-- `str(entry[key])` -/
def strAt (entry : PyJson) (key : String) : Except PyError PyText := do
  let value ← subscript entry key
  strOf fmt value

/-- What is read of an entry. -/
structure TimelineEntry where
  /-- without its hash -/
  body : PyJson
  eventHash : PyJson
  direction : PyText
  kind : PyText
  sequence : Int
  observedSequence : Int
  directionSequence : Int
  offset : Int
  length : Int

def readEntry (document : PyJson) : Except PyError TimelineEntry := do
  let (eventHash, body) ← pop document "event_sha256"
  let direction ← strAt fmt body "direction"
  let kind ← strAt fmt body "kind"
  let sequence ← intAt fmt body "sequence"
  let observedSequence ← intAt fmt body "observed_sequence"
  let directionSequence ← intAt fmt body "direction_sequence"
  let offset ← intAt fmt body "offset"
  let length ← intAt fmt body "length"
  return {
    body, eventHash, direction, kind, sequence, observedSequence, directionSequence, offset
    length }

/-- The direction of an entry that goes on where the timeline is. -/
def checkPosition (state : Inspection) (entry : TimelineEntry) : Except PyError Direction :=
  match entry.direction.text?.bind namedDirection with
  | none => .error .valueError
  | some direction => do
    raiseIf (entry.sequence ≠ state.events ∨ entry.observedSequence < 0) .valueError
    raiseIf (entry.observedSequence ∈ state.observedSequences) .valueError
    raiseIf (entry.directionSequence ≠ state.directionSequences.get direction) .valueError
    raiseIf (entry.offset ≠ state.coveredBytes.get direction ∨ entry.length < 0) .valueError
    raiseIf (((entry.body.get? "previous_event_sha256").getD .null).isText state.lastEvent = false)
      .valueError
    return direction

/-- The counters after an entry whose checks pass. -/
def checkEntry (state : Inspection) (entry : TimelineEntry) : Except PyError Inspection := do
  let direction ← checkPosition state entry
  let bytes ← canonicalJsonBytes fmt entry.body
  raiseIf (entry.eventHash.isText (some (fmt.sha256 bytes)) = false) .valueError
  match entry.kind.text? with
  | none => .error .valueError
  | some kind =>
    raiseIf (kind = "data" ∧ entry.length < 1) .valueError
    raiseIf (kind = "eof" ∧ entry.length ≠ 0) .valueError
    raiseIf (kind ≠ "data" ∧ kind ≠ "eof") .valueError
    return state.add kind direction entry.length.toNat entry.observedSequence (fmt.sha256 bytes)

/-- The counters after an entry, or the first exception. -/
def inspectEntry (state : Inspection) (document : PyJson) : Except PyError Inspection := do
  let entry ← readEntry fmt document
  checkEntry fmt state entry

/-- The counters after a line, or the first exception. -/
def inspectLine (state : Inspection) (line : Bytes) : Except PyError Inspection := do
  let document ← loaded (fmt.loads line)
  inspectEntry fmt state document

/-- The lines up to the first that is broken. -/
def inspectLines : Inspection → List Bytes → Except PyError Inspection
  | state, [] => .ok state
  | state, line :: lines =>
    match inspectLine fmt state line with
    | .ok state => inspectLines state lines
    | .error error =>
      if error.handled then .ok { state with integrityOk := false } else .error error

/-- `_inspect_timeline` -/
def inspectTimeline (timeline : Bytes) : Except PyError Inspection :=
  inspectLines fmt {} (rawLines timeline)

/-! ## One directory -/

/-- The job a manifest names. -/
def manifestJob (manifest : Bytes) : Except PyError PyText := do
  let document ← loaded (fmt.loads manifest)
  let session ← subscript document "session"
  strAt fmt session "job_id"

/-- The text after the last underscore. -/
def guessedJobId (directory : SpoolDirectory) : PyText :=
  match directory.undecoded with
  | some points => .lone points
  | none => .text (String.ofList
      (directory.name.toList.reverse.takeWhile fun c => c != '_').reverse)

def unknownEndpoint : Json := .obj [("host", .str "unknown"), ("port", .num 0)]

/-- The session of a directory whose descriptor cannot be read. -/
def guessedSession (clock : Clock) (directory : SpoolDirectory) : PyJson :=
  let jobId := PyJson.str (guessedJobId directory)
  .obj ((.text "session_id", jobId) :: (.text "job_id", jobId) ::
    PyJson.ofFields [("device_id", .str directory.deviceId),
      ("device_name", .str directory.deviceId), ("device_type", .str "unknown"),
      ("parser", .str "unknown"), ("client_endpoint", unknownEndpoint),
      ("listener_endpoint", unknownEndpoint), ("target_endpoint", unknownEndpoint),
      ("connected_at_utc", .str clock.session), ("connected_monotonic_ns", .num 0)])

/-- The session object of the descriptor. -/
def loadSession (directory : SpoolDirectory) : Except PyError PyJson :=
  match directory.session with
  | none => .error .osError
  | some content => do
    let document ← loaded (fmt.loadsText content)
    let session ← subscript document "session"
    match session with
    | .obj fields => .ok (.obj fields)
    | _ => .error .typeError

/-- `_read_recovery_session` -/
def readRecoverySession (clock : Clock) (directory : SpoolDirectory) : Except PyError PyJson :=
  match loadSession fmt directory with
  | .ok session => .ok session
  | .error error => if error.handled then .ok (guessedSession clock directory) else .error error

/-- The facts of a manifest that was set aside. -/
def preservedFacts (name : PyText) (content : Bytes) : PyJson :=
  .obj ((.text "name", .str name) ::
    PyJson.ofFields [("size", .num content.length), ("sha256", .str (fmt.sha256 content))])

/-- `files` of a recovered manifest: the four files, then the manifests set aside. -/
def recoveredFiles (raw : ByDirection Bytes) (timeline session : Bytes)
    (untrusted : List (PyText × Bytes)) : PyJson :=
  match PyJson.ofJson (filesDocument fmt raw timeline session) with
  | .obj fields => .obj (fields ++ untrusted.map fun f => (f.1, preservedFacts fmt f.1 f.2))
  | value => value

def recoveryErrors (timelineCoversRaw : Bool) : List String :=
  "unclean shutdown; completeness beyond captured prefixes is unknown" ::
    if timelineCoversRaw then []
    else ["timeline does not cover directional RAW; trailing bytes have no chunk index"]

/-- What a recovered manifest holds beside its session and its files. -/
def recoveredFields (clock : Clock) (raw : ByDirection Bytes) (inspection : Inspection) :
    List (String × Json) :=
  let capturedBytes : ByDirection Nat := ⟨raw.clientToDevice.length, raw.deviceToClient.length⟩
  let timelineCoversRaw := inspection.integrityOk && inspection.coveredBytes == capturedBytes
  [("schema_version", .num 1),
    ("capture_format", .str "retailprintguard-bidirectional-v1"),
    ("closed_at_utc", .str clock.closed),
    ("closed_monotonic_ns", .num 0),
    ("close_reason", .str "recovered_after_unclean_shutdown"),
    ("status", .str "PARTIAL"),
    ("transport_complete", .bool false),
    ("storage_complete", .bool timelineCoversRaw),
    ("observed_bytes", countDocument capturedBytes),
    ("observed_chunks", countDocument inspection.dataChunks),
    ("captured_bytes", countDocument capturedBytes),
    ("captured_chunks", countDocument inspection.dataChunks),
    ("timeline_covered_bytes", countDocument inspection.coveredBytes),
    ("eof_events", countDocument inspection.eofEvents),
    ("timeline_events", .num inspection.events),
    ("last_event_sha256", optionalText inspection.lastEvent),
    ("dropped_chunks", .num 0),
    ("dropped_bytes", .num 0),
    ("errors", .arr ((recoveryErrors timelineCoversRaw).map .str))]

/-- The manifest of a directory whose own was not found or not readable, before
its keys are sorted. -/
def recoveredManifest (clock : Clock) (session : PyJson) (raw : ByDirection Bytes)
    (inspection : Inspection) (files : PyJson) : PyJson :=
  .obj ((.text "session", session) :: (.text "files", files) ::
    PyJson.ofFields (recoveredFields clock raw inspection))

/-- The files that are missing are created empty. -/
def presentRaw (directory : SpoolDirectory) : ByDirection Bytes :=
  ⟨directory.raw.clientToDevice.getD [], directory.raw.deviceToClient.getD []⟩

/-- `with_name` refuses the name. -/
def invalidName (name : String) : Bool := name == "" || name == "."

/-- `_finish_recovered_directory`: what it raises. -/
def finishError (occupied : Bool) (directory : SpoolDirectory) : Option String :=
  if directory.isPartial && invalidName directory.name then
    some ("ValueError: Invalid name " ++ reprText directory.name)
  else if directory.isPartial && occupied then
    some ("CaptureError: recovery destination already exists: " ++ directory.deviceId ++ "/" ++
      directory.name)
  else none

/-- `_publish_ready` for a directory with its final name -/
def publishReady (directory : SpoolDirectory) (manifest : Bytes) (jobId : PyText) :
    Except String JobDirectory :=
  match jobId with
  | .lone _ => .error PyError.unicodeEncodeError.name
  | .text jobId =>
    .ok {
      deviceId := directory.deviceId
      name := directory.name
      raw := presentRaw directory
      timeline := directory.timeline.getD []
      session := directory.session.getD []
      manifest
      ready := readyBytes fmt jobId manifest }

def publish (occupied : Bool) (directory : SpoolDirectory) (manifest : Bytes) (jobId : PyText) :
    Except String JobDirectory :=
  match finishError occupied directory with
  | some error => .error error
  | none => publishReady fmt directory manifest jobId

/-- The session of a directory whose manifest is to be derived, with its job. -/
def recoverSession (clock : Clock) (directory : SpoolDirectory) :
    Except PyError (PyJson × PyText) := do
  let session ← readRecoverySession fmt clock directory
  let jobId ← strAt fmt session "job_id"
  return (session, jobId)

/-- The manifest that is derived. -/
def deriveManifest (clock : Clock) (directory : SpoolDirectory) (session : PyJson) :
    Except PyError Bytes := do
  let raw := presentRaw directory
  let timeline := directory.timeline.getD []
  let inspection ← inspectTimeline fmt timeline
  let files := recoveredFiles fmt raw timeline (directory.session.getD []) directory.untrusted
  let manifest ← canonicalJsonBytes fmt (recoveredManifest clock session raw inspection files)
  return manifest ++ [newline]

/-- A directory whose manifest is to be derived. -/
def recoverFiles (clock : Clock) (occupied : Bool) (directory : SpoolDirectory) :
    Except String JobDirectory := do
  let (session, jobId) ← (recoverSession fmt clock directory).mapError PyError.name
  let manifest ← (deriveManifest fmt clock directory session).mapError PyError.name
  publish fmt occupied directory manifest jobId

/-- A manifest that cannot be read is set aside under a name that is free. -/
def setAside (clock : Clock) (directory : SpoolDirectory) (manifest : Bytes) : SpoolDirectory :=
  let name :=
    if directory.untrusted.any fun f => f.1 == .text "manifest.untrusted.json" then
      "manifest.untrusted." ++ clock.unique ++ ".json"
    else "manifest.untrusted.json"
  { directory with
    manifest := none
    untrusted := directory.untrusted ++ [(.text name, manifest)] }

/-- The job that is published for a directory, if it had no marker. -/
def recoverDirectory (clock : Clock) (occupied : Bool) (directory : SpoolDirectory) :
    Except String (Option JobDirectory) :=
  match directory.ready with
  | some _ => .ok none
  | none =>
    match directory.manifest with
    | some manifest =>
      match manifestJob fmt manifest with
      | .ok jobId => (publish fmt occupied directory manifest jobId).map some
      | .error error =>
        if error.handled then
          (recoverFiles fmt clock occupied (setAside clock directory manifest)).map some
        else .error error.name
    | none => (recoverFiles fmt clock occupied directory).map some

/-- The names in the spool, each with its device. -/
def spoolNames (directories : List SpoolDirectory) : List (String × String) :=
  directories.map fun directory => (directory.deviceId, directory.fullName)

/-- The final name of a directory is there already. -/
def occupied (names : List (String × String)) (directory : SpoolDirectory) : Bool :=
  directory.name == ".." || names.contains (directory.deviceId, directory.name)

/-- The names when the turn of a directory is over. -/
def namesAfter (names : List (String × String)) (directory : SpoolDirectory) :
    List (String × String) :=
  if directory.ready.isNone && directory.isPartial then
    (directory.deviceId, directory.name) ::
      names.filter fun name => name != (directory.deviceId, directory.fullName)
  else names

/-- The directories one after the other, each with the texts of its clock. -/
def recoverFrom (names : List (String × String)) :
    List (SpoolDirectory × Clock) → Except String (List JobDirectory)
  | [] => .ok []
  | (directory, clock) :: rest => do
    let recovered ← recoverDirectory fmt clock (occupied names directory) directory
    let later ← recoverFrom (namesAfter names directory) rest
    return recovered.toList ++ later

/-- `recover_incomplete_spool`, with the names of the plain files beside the
directories -/
def recoverIncompleteSpool (directories : List (SpoolDirectory × Clock))
    (files : List (String × String) := []) : Except String (List JobDirectory) :=
  recoverFrom fmt (files ++ spoolNames (directories.map Prod.fst)) directories

end

/-! ## What is caught -/

section
variable {α β : Type}

/-- Nothing is raised, or what is raised is caught. -/
def Caught (x : Except PyError α) : Prop := ∀ error, x = .error error → error.handled = true

theorem caught_ok (a : α) : Caught (.ok a) := fun _ h => by cases h

theorem caught_pure (a : α) : Caught (pure a) := caught_ok a

theorem caught_error {error : PyError} :
    Caught (.error error : Except PyError α) ↔ error.handled = true :=
  ⟨fun h => h error rfl, fun h _ heq => Except.error.inj heq ▸ h⟩

theorem caught_bind {x : Except PyError α} {f : α → Except PyError β} :
    Caught (x >>= f) ↔ Caught x ∧ ∀ a, x = .ok a → Caught (f a) := by
  cases x with
  | error e =>
    refine ⟨fun h => ⟨fun e' he' => h e' ?_, fun a ha => by cases ha⟩, fun h e' he' => h.1 e' ?_⟩
    · rw [Except.error.inj he']
      rfl
    · exact congrArg _ (Except.error.inj he')
  | ok a =>
    refine ⟨fun h => ⟨caught_ok a, fun b hb => ?_⟩, fun h => h.2 a rfl⟩
    obtain rfl : a = b := Except.ok.inj hb
    exact h

theorem caught_raiseIf {condition : Prop} [Decidable condition] {error : PyError}
    (h : error.handled = true) : Caught (raiseIf condition error) := by
  unfold raiseIf
  split
  · exact caught_error.mpr h
  · exact caught_ok ()

theorem caught_subscript (value : PyJson) (key : String) : Caught (subscript value key) := by
  unfold subscript
  split
  · split
    · exact caught_ok _
    · exact caught_error.mpr rfl
  · exact caught_error.mpr rfl

theorem subscript_eq_ok {value v : PyJson} {key : String} :
    subscript value key = .ok v ↔ value.get? key = some v := by
  unfold subscript
  split
  · split <;> simp [*]
  · next hobj =>
    cases value with
    | obj fields => exact absurd rfl (hobj fields)
    | _ => exact iff_of_false (fun h => by cases h) (fun h => by cases h)

variable {fmt : Codec}

theorem caught_intOf {value : PyJson} :
    Caught (intOf fmt value) ↔ ∀ negative, value ≠ .float (.infinite negative) := by
  cases value with
  | null => exact iff_of_true (caught_error.mpr rfl) (fun _ h => by cases h)
  | bool b => exact iff_of_true (caught_ok _) (fun _ h => by cases h)
  | num n => exact iff_of_true (caught_ok _) (fun _ h => by cases h)
  | float f =>
    cases f with
    | finite text => exact iff_of_true (caught_ok _) (fun _ h => by cases h)
    | infinite negative =>
      exact iff_of_false (fun h => absurd (caught_error.mp h) (by decide)) (fun h => h negative rfl)
    | nan => exact iff_of_true (caught_error.mpr rfl) (fun _ h => by cases h)
  | str text =>
    refine iff_of_true ?_ (fun _ h => by cases h)
    cases text with
    | lone points => exact caught_error.mpr rfl
    | text text =>
      cases hread : fmt.intOfText text with
      | some n => simp only [intOf, hread, caught_ok]
      | none => simp only [intOf, hread, caught_error, PyError.handled]
  | arr values => exact iff_of_true (caught_error.mpr rfl) (fun _ h => by cases h)
  | obj fields => exact iff_of_true (caught_error.mpr rfl) (fun _ h => by cases h)

theorem caught_intAt {entry : PyJson} {key : String} :
    Caught (intAt fmt entry key) ↔
      ∀ negative, entry.get? key ≠ some (.float (.infinite negative)) := by
  unfold intAt
  rw [caught_bind, and_iff_right (caught_subscript entry key)]
  simp only [subscript_eq_ok, caught_intOf]
  constructor
  · intro h negative hget
    exact h _ hget negative rfl
  · rintro h value hget negative rfl
    exact h negative hget

end

section
variable (fmt : Codec)

/-- `str` of the value returns. -/
def Printable (value : PyJson) : Prop :=
  (∃ text, value = .str text) ∨ fmt.strTooDeep value = false

/-- The fields of an entry that are read as integers, in the order of the reads. -/
def integerFields : List String :=
  ["sequence", "observed_sequence", "direction_sequence", "offset", "length"]

/-- No infinite number is read before the first field that is no integer. -/
def IntegersCaught (entry : PyJson) : List String → Prop
  | [] => True
  | key :: keys =>
    (∀ negative, entry.get? key ≠ some (.float (.infinite negative))) ∧
      ∀ n, intAt fmt entry key = .ok n → IntegersCaught entry keys

/-- The fields that are read, in their order, raise nothing else. -/
def FieldsCaught (entry : PyJson) : Prop :=
  ∀ direction, entry.get? "direction" = some direction → Printable fmt direction ∧
    ∀ kind, entry.get? "kind" = some kind → Printable fmt kind ∧
      IntegersCaught fmt entry integerFields

/-- The value of a line is an array, or an object whose fields can be read, and
that can be written again where it goes on with the timeline. -/
def EntryCaught (state : Inspection) : PyJson → Prop
  | .obj fields =>
    (∀ eventHash entry, pop (.obj fields) "event_sha256" = .ok (eventHash, entry) →
      FieldsCaught fmt entry) ∧
    ∀ entry, readEntry fmt (.obj fields) = .ok entry → Returns (checkPosition state entry) →
      fmt.dumpsTooDeep entry.body = false
  | .arr _ => True
  | _ => False

variable {fmt}

theorem strOf_cases (value : PyJson) :
    (∃ text, strOf fmt value = .ok text ∧ Printable fmt value) ∨
      (strOf fmt value = .error .recursionError ∧ ¬Printable fmt value) := by
  unfold Printable
  cases value with
  | str text => exact .inl ⟨text, rfl, .inl ⟨text, rfl⟩⟩
  | _ =>
    simp only [strOf, reduceCtorEq, exists_false, false_or]
    split
    · next h => exact .inr ⟨rfl, by simp [h]⟩
    · next h => exact .inl ⟨_, rfl, Bool.eq_false_iff.mpr h⟩

theorem returns_strOf {value : PyJson} : Returns (strOf fmt value) ↔ Printable fmt value := by
  rcases @strOf_cases fmt value with ⟨text, hstr, h⟩ | ⟨hstr, h⟩
  · exact iff_of_true ⟨text, hstr⟩ h
  · rw [hstr]
    exact iff_of_false (not_returns_error _) h

theorem caught_strOf {value : PyJson} : Caught (strOf fmt value) ↔ Printable fmt value := by
  rcases @strOf_cases fmt value with ⟨text, hstr, h⟩ | ⟨hstr, h⟩
  · rw [hstr]
    exact iff_of_true (caught_ok text) h
  · rw [hstr]
    exact iff_of_false (fun hcaught => absurd (caught_error.mp hcaught) (by decide)) h

theorem caught_strAt {entry : PyJson} {key : String} :
    Caught (strAt fmt entry key) ↔ ∀ value, entry.get? key = some value → Printable fmt value := by
  unfold strAt
  rw [caught_bind, and_iff_right (caught_subscript entry key)]
  simp only [subscript_eq_ok, caught_strOf]

theorem strAt_eq_ok {entry : PyJson} {key : String} {text : PyText} :
    strAt fmt entry key = .ok text ↔
      ∃ value, entry.get? key = some value ∧ strOf fmt value = .ok text := by
  simp only [strAt, bind_eq_ok, subscript_eq_ok]

theorem canonicalJsonBytes_eq_ok {value : PyJson} {bytes : Bytes} :
    canonicalJsonBytes fmt value = .ok bytes ↔
      fmt.dumpsTooDeep value = false ∧ ∃ document, value.toJson? = some document ∧
        document.dumps = bytes := by
  unfold canonicalJsonBytes
  split
  · next h => simp [h]
  · next h =>
    rw [Bool.not_eq_true] at h
    split <;> simp [*]

theorem caught_canonicalJsonBytes {value : PyJson} :
    Caught (canonicalJsonBytes fmt value) ↔ fmt.dumpsTooDeep value = false := by
  unfold canonicalJsonBytes
  split
  · next h =>
    refine iff_of_false (fun hcaught => absurd (caught_error.mp hcaught) (by decide)) ?_
    simp [h]
  · next h =>
    refine iff_of_true ?_ (Bool.eq_false_iff.mpr h)
    split
    · exact caught_ok _
    · exact caught_error.mpr rfl

theorem caught_pop {document : PyJson} : Caught (pop document "event_sha256") ↔
    (∃ fields, document = .obj fields) ∨ ∃ values, document = .arr values := by
  cases document with
  | obj fields =>
    refine iff_of_true ?_ (Or.inl ⟨fields, rfl⟩)
    intro error h
    cases hsub : subscript (.obj fields) "event_sha256" with
    | error e =>
      rw [pop, hsub] at h
      exact Except.error.inj h ▸ caught_subscript _ _ e hsub
    | ok v =>
      rw [pop, hsub] at h
      cases h
  | arr values => exact iff_of_true (caught_error.mpr rfl) (Or.inr ⟨values, rfl⟩)
  | _ =>
    refine iff_of_false (fun h => absurd (caught_error.mp h) (by decide)) ?_
    rintro (⟨_, h⟩ | ⟨_, h⟩) <;> cases h

/-- Reading the fields raises nothing that is not caught exactly where they allow it. -/
theorem caught_fields {entry : PyJson} : FieldsCaught fmt entry ↔
    Caught (strAt fmt entry "direction") ∧ ∀ direction, strAt fmt entry "direction" = .ok direction →
      Caught (strAt fmt entry "kind") ∧ ∀ kind, strAt fmt entry "kind" = .ok kind →
        IntegersCaught fmt entry integerFields := by
  simp only [caught_strAt, strAt_eq_ok, FieldsCaught]
  constructor
  · intro h
    refine ⟨fun value hvalue => (h value hvalue).1, ?_⟩
    rintro direction ⟨value, hvalue, -⟩
    refine ⟨fun kind hkind => ((h value hvalue).2 kind hkind).1, ?_⟩
    rintro _ ⟨kind, hkind, -⟩
    exact ((h value hvalue).2 kind hkind).2
  · rintro ⟨hdirection, h⟩ value hvalue
    have hprinted := hdirection value hvalue
    obtain ⟨direction, hstr⟩ := returns_strOf.mpr hprinted
    obtain ⟨hkind, h⟩ := h direction ⟨value, hvalue, hstr⟩
    refine ⟨hprinted, fun kind hkind' => ?_⟩
    obtain ⟨text, htext⟩ := returns_strOf.mpr (hkind kind hkind')
    exact ⟨hkind kind hkind', h text ⟨kind, hkind', htext⟩⟩

theorem caught_readEntry {fields : List (PyText × PyJson)} :
    Caught (readEntry fmt (.obj fields)) ↔ ∀ eventHash entry,
      pop (.obj fields) "event_sha256" = .ok (eventHash, entry) → FieldsCaught fmt entry := by
  have hpop : Caught (pop (.obj fields) "event_sha256") := caught_pop.mpr (.inl ⟨fields, rfl⟩)
  unfold readEntry
  rw [caught_bind, and_iff_right hpop]
  simp only [caught_fields, Prod.forall, caught_bind, caught_intAt, caught_pure, IntegersCaught,
    integerFields, and_true, implies_true]

theorem caught_checkPosition {state : Inspection} {entry : TimelineEntry} :
    Caught (checkPosition state entry) := by
  have hvalue : ∀ (condition : Prop) [Decidable condition],
      Caught (raiseIf condition PyError.valueError) := fun condition _ => caught_raiseIf rfl
  unfold checkPosition
  split
  · exact caught_error.mpr rfl
  · simp only [caught_bind, hvalue, caught_pure, implies_true, and_self]

theorem caught_checkEntry {state : Inspection} {entry : TimelineEntry} :
    Caught (checkEntry fmt state entry) ↔
      (Returns (checkPosition state entry) → fmt.dumpsTooDeep entry.body = false) := by
  have hvalue : ∀ (condition : Prop) [Decidable condition],
      Caught (raiseIf condition PyError.valueError) := fun condition _ => caught_raiseIf rfl
  have hrest : ∀ (direction : Direction) (bytes : Bytes), Caught (do
      raiseIf (entry.eventHash.isText (some (fmt.sha256 bytes)) = false) PyError.valueError
      match entry.kind.text? with
      | none => Except.error PyError.valueError
      | some kind =>
        raiseIf (kind = "data" ∧ entry.length < 1) PyError.valueError
        raiseIf (kind = "eof" ∧ entry.length ≠ 0) PyError.valueError
        raiseIf (kind ≠ "data" ∧ kind ≠ "eof") PyError.valueError
        return state.add kind direction entry.length.toNat entry.observedSequence
          (fmt.sha256 bytes)) := by
    intro direction bytes
    rw [caught_bind, and_iff_right (hvalue _)]
    intro _ _
    split
    · exact caught_error.mpr rfl
    · simp only [caught_bind, hvalue, caught_pure, implies_true, and_self]
  unfold checkEntry
  simp only [caught_bind, caught_checkPosition, caught_canonicalJsonBytes, hrest, true_and,
    implies_true, and_true]
  exact ⟨fun h ⟨direction, hdirection⟩ => h direction hdirection,
    fun h direction hdirection => h ⟨direction, hdirection⟩⟩

/-- Inspecting an entry raises nothing that is not caught exactly where its
value allows it. -/
theorem caught_inspectEntry {state : Inspection} {document : PyJson} :
    Caught (inspectEntry fmt state document) ↔ EntryCaught fmt state document := by
  unfold inspectEntry
  rw [caught_bind]
  cases document with
  | obj fields => simp only [caught_readEntry, caught_checkEntry, EntryCaught]
  | arr values =>
    exact iff_of_true ⟨caught_error.mpr rfl, fun _ h => by cases h⟩ trivial
  | _ =>
    exact iff_of_false (fun h => absurd (caught_error.mp h.1) (by decide)) id

end

section
variable (fmt : Codec)

/-- What is raised at a line is caught. -/
def LineCaught (state : Inspection) (line : Bytes) : Prop :=
  match fmt.loads line with
  | .value document => EntryCaught fmt state document
  | .valueError => True
  | .recursionError => False

/-- What is raised at a line is caught, as far as the lines are read. -/
def LinesCaught : Inspection → List Bytes → Prop
  | _, [] => True
  | state, line :: lines =>
    LineCaught fmt state line ∧
      ∀ state', inspectLine fmt state line = .ok state' → LinesCaught state' lines

variable {fmt}

theorem lineCaught_value {state : Inspection} {line : Bytes} {document : PyJson}
    (h : fmt.loads line = .value document) :
    LineCaught fmt state line ↔ EntryCaught fmt state document := by
  rw [LineCaught, h]

theorem caught_inspectLine {state : Inspection} {line : Bytes} :
    Caught (inspectLine fmt state line) ↔ LineCaught fmt state line := by
  unfold inspectLine LineCaught
  cases fmt.loads line with
  | value document => exact caught_inspectEntry
  | valueError => exact iff_of_true (caught_error.mpr rfl) trivial
  | recursionError => exact iff_of_false (fun h => absurd (caught_error.mp h) (by decide)) id

/-- The timeline is inspected exactly where what its lines raise is caught. -/
theorem returns_inspectLines {state : Inspection} {lines : List Bytes} :
    Returns (inspectLines fmt state lines) ↔ LinesCaught fmt state lines := by
  induction lines generalizing state with
  | nil => exact iff_of_true (returns_ok state) trivial
  | cons line lines ih =>
    rw [inspectLines, LinesCaught, ← @caught_inspectLine fmt state]
    cases hline : inspectLine fmt state line with
    | ok state' =>
      rw [and_iff_right (caught_ok state')]
      simp only [ih, Except.ok.injEq, forall_eq']
    | error error =>
      simp only [caught_error, reduceCtorEq, false_implies, implies_true, and_true]
      split
      · next h => exact iff_of_true (returns_ok _) h
      · next h => exact iff_of_false (not_returns_error _) h

end

/-! ## What a recovery returns -/

section
variable {fmt : Codec} {clock : Clock} {directory : SpoolDirectory} {taken : Bool}

theorem recoverSession_eq_ok {session : PyJson} {jobId : PyText} :
    recoverSession fmt clock directory = .ok (session, jobId) ↔
      readRecoverySession fmt clock directory = .ok session ∧
        strAt fmt session "job_id" = .ok jobId := by
  simp only [recoverSession, bind_eq_ok, pure_eq_ok, Prod.mk.injEq]
  constructor
  · rintro ⟨_, hsession, _, hjob, rfl, rfl⟩
    exact ⟨hsession, hjob⟩
  · rintro ⟨hsession, hjob⟩
    exact ⟨session, hsession, jobId, hjob, rfl, rfl⟩

theorem recoverFiles_eq_ok {job : JobDirectory} :
    recoverFiles fmt clock taken directory = .ok job ↔
      ∃ session jobId manifest, recoverSession fmt clock directory = .ok (session, jobId) ∧
        deriveManifest fmt clock directory session = .ok manifest ∧
        publish fmt taken directory manifest jobId = .ok job := by
  simp only [recoverFiles, bind_eq_ok, mapError_eq_ok, Prod.exists]
  constructor
  · rintro ⟨session, jobId, hsession, manifest, hmanifest, hpublish⟩
    exact ⟨session, jobId, manifest, hsession, hmanifest, hpublish⟩
  · rintro ⟨session, jobId, manifest, hsession, hmanifest, hpublish⟩
    exact ⟨session, jobId, hsession, manifest, hmanifest, hpublish⟩

theorem deriveManifest_eq_ok {session : PyJson} {manifest : Bytes} :
    deriveManifest fmt clock directory session = .ok manifest ↔
      ∃ inspection bytes, inspectTimeline fmt (directory.timeline.getD []) = .ok inspection ∧
        canonicalJsonBytes fmt (recoveredManifest clock session (presentRaw directory) inspection
          (recoveredFiles fmt (presentRaw directory) (directory.timeline.getD [])
            (directory.session.getD []) directory.untrusted)) = .ok bytes ∧
        bytes ++ [newline] = manifest := by
  simp only [deriveManifest, bind_eq_ok, pure_eq_ok]
  constructor
  · rintro ⟨inspection, hinspect, bytes, hbytes, heq⟩
    exact ⟨inspection, bytes, hinspect, hbytes, heq⟩
  · rintro ⟨inspection, bytes, hinspect, hbytes, heq⟩
    exact ⟨inspection, hinspect, bytes, hbytes, heq⟩

end

end RetailPrintGuard.Proxy.Recovery
