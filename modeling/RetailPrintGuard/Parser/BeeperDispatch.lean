import RetailPrintGuard.Common.PrintedText
import RetailPrintGuard.Library.BoundedMemory
import RetailPrintGuard.Library.Checks

/-! # The dispatcher of the beeper

The watcher of the spool and the parser worker submit the same jobs to one
dispatcher. It keeps a bounded queue for each printer and remembers the last
events it accepted. -/
namespace RetailPrintGuard.Parser.BeeperDispatch
open RetailPrintGuard.Common.PrintedText (isWhitespace stripBy)
open RetailPrintGuard.Library.BoundedMemory RetailPrintGuard.Library.Checks

/-- `_RECENT_EVENT_LIMIT` -/
def recentEventLimit : Nat := 10000

/-- An event of a device. -/
abbrev EventKey := String × String

structure Dispatcher where
  enabled : Bool
  stopped : Bool := false
  queueSizePerDevice : Nat
  /-- the targets with the triggers that wait for them -/
  queues : List (String × Nat)
  /-- oldest first -/
  recentEvents : List EventKey := []

/-- `PosBeeperDispatcher.__init__` -/
def openDispatcher (enabled : Bool) (queueSizePerDevice : Nat) (targets : List String) :
    Except String Dispatcher := do
  raiseIf (256 < targets.length) "POS beeper supports at most 256 targets"
  raiseIf (¬ targets.Nodup) "duplicate beeper target"
  raiseIf (enabled = true ∧ targets = []) "POS beeper is enabled but no enabled POS targets exist"
  return { enabled, queueSizePerDevice, queues := targets.map fun target => (target, 0) }

/-- `str.strip` -/
def stripText (text : String) : String := String.ofList (stripBy isWhitespace text.toList)

/-- A queue takes or gives up a trigger. -/
def withWaiting (queues : List (String × Nat)) (deviceId : String) (change : Nat → Nat) :
    List (String × Nat) :=
  queues.map fun (target, waiting) =>
    (target, if target = deviceId then change waiting else waiting)

/-- The key under which an event is remembered. -/
def eventKey (deviceId eventId : String) : EventKey := (deviceId, stripText eventId)

/-- The accepted event is remembered, and the oldest ones are forgotten. -/
def remember (recentEvents : List EventKey) (key : EventKey) : List EventKey :=
  let recentEvents := recentEvents ++ [key]
  recentEvents.drop (recentEvents.length - recentEventLimit)

/-- The part of `enqueue` under the lock. -/
def putTrigger (dispatcher : Dispatcher) (deviceId : String) (waiting : Nat)
    (key : Option EventKey) : Bool × Dispatcher :=
  if key.any dispatcher.recentEvents.contains then (false, dispatcher)
  else if dispatcher.queueSizePerDevice ≤ waiting then (false, dispatcher)
  else (true, { dispatcher with
    queues := withWaiting dispatcher.queues deviceId (· + 1)
    recentEvents := key.elim dispatcher.recentEvents (remember dispatcher.recentEvents) })

/-- `PosBeeperDispatcher.enqueue` -/
def enqueue (dispatcher : Dispatcher) (deviceId : String) (eventId : Option String) :
    Except String (Bool × Dispatcher) :=
  if !dispatcher.enabled || dispatcher.stopped then .ok (false, dispatcher)
  else
    match dispatcher.queues.lookup deviceId with
    | none => .ok (false, dispatcher)
    | some waiting =>
      match eventId with
      | none => .ok (putTrigger dispatcher deviceId waiting none)
      | some eventId =>
        let normalizedEvent := stripText eventId
        if normalizedEvent = "" ∨ 256 < normalizedEvent.length then
          .error "beeper event id must contain between 1 and 256 characters"
        else .ok (putTrigger dispatcher deviceId waiting (some (deviceId, normalizedEvent)))

/-! ## The two producers -/

/-- `text.removesuffix(suffix)` -/
def removeSuffix (text suffix : String) : String :=
  if suffix.toList.isSuffixOf text.toList then
    String.ofList (text.toList.take (text.length - suffix.length))
  else text

/-- `Path(path).parent.name` -/
def parentName (path : String) : String :=
  let parts := (path.toList.splitOn '/').filter fun part => part ≠ [] ∧ part ≠ ['.']
  String.ofList ((parts.dropLast.getLast?).getD [])

inductive Action where
  /-- the watcher submits a partial directory of the spool -/
  | partialSeen (deviceId directory : String)
  /-- the parser worker submits a job, by the path of its request -/
  | jobParsed (deviceId requestPath : String)
  /-- a trigger without an event -/
  | triggered (deviceId : String)
  /-- the thread of a device takes a trigger -/
  | taken (deviceId : String)
  | closed

/-- A dispatcher with the events it accepted so far. -/
structure History where
  dispatcher : Dispatcher
  accepted : List EventKey := []

/-- A submission; a raised error leaves the dispatcher as it is. -/
def History.submit (history : History) (deviceId eventId : String) : History :=
  match enqueue history.dispatcher deviceId (some eventId) with
  | .ok (true, dispatcher) =>
    { dispatcher, accepted := history.accepted ++ [eventKey deviceId eventId] }
  | .ok (false, dispatcher) => { history with dispatcher }
  | .error _ => history

def History.step (history : History) : Action → History
  | .partialSeen deviceId directory =>
    history.submit deviceId (removeSuffix directory ".partial")
  | .jobParsed deviceId requestPath =>
    history.submit deviceId (removeSuffix (parentName requestPath) ".partial")
  | .triggered deviceId =>
    match enqueue history.dispatcher deviceId none with
    | .ok (_, dispatcher) => { history with dispatcher }
    | .error _ => history
  | .taken deviceId =>
    { history with dispatcher := { history.dispatcher with
        queues := withWaiting history.dispatcher.queues deviceId (· - 1) } }
  | .closed => { history with dispatcher := { history.dispatcher with stopped := true } }

/-- Any interleaving of the producers and the threads. -/
def run (dispatcher : Dispatcher) (actions : List Action) : History :=
  actions.foldl History.step { dispatcher }

/-! ## What is remembered -/

variable {dispatcher dispatcher' : Dispatcher} {deviceId eventId : String} {history : History}
variable {waiting : Nat} {key : Option EventKey}

theorem putTrigger_accepted (h : putTrigger dispatcher deviceId waiting key = (true, dispatcher')) :
    (∀ event ∈ key, event ∉ dispatcher.recentEvents) ∧ dispatcher'.recentEvents =
      key.elim dispatcher.recentEvents (remember dispatcher.recentEvents) := by
  unfold putTrigger at h
  split at h
  · cases h
  · next hnew =>
    split at h
    · cases h
    · obtain ⟨-, rfl⟩ := Prod.mk.inj h
      refine ⟨fun event hevent hin => hnew ?_, rfl⟩
      rw [Option.mem_def.mp hevent]
      exact List.contains_iff_mem.mpr hin

theorem putTrigger_refused (h : putTrigger dispatcher deviceId waiting key = (false, dispatcher')) :
    dispatcher' = dispatcher := by
  unfold putTrigger at h
  split at h
  · exact (Prod.mk.inj h).2.symm
  · split at h
    · exact (Prod.mk.inj h).2.symm
    · cases h

theorem enqueue_accepted
    (h : enqueue dispatcher deviceId (some eventId) = .ok (true, dispatcher')) :
    eventKey deviceId eventId ∉ dispatcher.recentEvents ∧ dispatcher'.recentEvents =
      remember dispatcher.recentEvents (eventKey deviceId eventId) := by
  unfold enqueue at h
  rw [eventKey]
  split at h
  · cases h
  · split at h
    · cases h
    · dsimp only at h
      split at h
      · cases h
      · obtain ⟨hnew, hrecent⟩ := putTrigger_accepted (Except.ok.inj h)
        rw [Option.elim_some] at hrecent
        exact ⟨hnew _ rfl, hrecent⟩

/-- A refused submission and a trigger without an event change no memory. -/
theorem enqueue_kept {event : Option String} {accepted : Bool}
    (h : enqueue dispatcher deviceId event = .ok (accepted, dispatcher'))
    (hcase : accepted = false ∨ event = none) :
    dispatcher'.recentEvents = dispatcher.recentEvents := by
  unfold enqueue at h
  split at h
  · rw [(Prod.mk.inj (Except.ok.inj h)).2]
  · split at h
    · rw [(Prod.mk.inj (Except.ok.inj h)).2]
    · split at h
      · cases accepted with
        | true => exact (putTrigger_accepted (Except.ok.inj h)).2
        | false => rw [putTrigger_refused (Except.ok.inj h)]
      · dsimp only at h
        split at h
        · cases h
        · obtain rfl | hnone := hcase
          · rw [putTrigger_refused (Except.ok.inj h)]
          · cases hnone

/-- The dispatcher remembers the last events it accepted. -/
structure Remembers (history : History) : Prop where
  recent : history.dispatcher.recentEvents = lastOf recentEventLimit history.accepted
  spaced : Spaced recentEventLimit history.accepted

theorem Remembers.submit (h : Remembers history) :
    Remembers (history.submit deviceId eventId) := by
  unfold History.submit
  cases hresult : enqueue history.dispatcher deviceId (some eventId) with
  | error message => exact h
  | ok result =>
    obtain ⟨accepted, dispatcher'⟩ := result
    cases accepted with
    | false => exact ⟨(enqueue_kept hresult (Or.inl rfl)).trans h.recent, h.spaced⟩
    | true =>
      obtain ⟨hnew, hrecent⟩ := enqueue_accepted hresult
      rw [h.recent] at hnew
      refine ⟨?_, h.spaced.concat hnew⟩
      rw [lastOf_concat, ← h.recent]
      exact hrecent

theorem Remembers.step (h : Remembers history) (action : Action) :
    Remembers (history.step action) := by
  cases action with
  | partialSeen deviceId directory => exact h.submit
  | jobParsed deviceId requestPath => exact h.submit
  | triggered deviceId =>
    unfold History.step
    cases hresult : enqueue history.dispatcher deviceId none with
    | error message => simpa only [hresult] using h
    | ok result =>
      obtain ⟨accepted, dispatcher'⟩ := result
      simp only [hresult]
      exact ⟨(enqueue_kept hresult (Or.inr rfl)).trans h.recent, h.spaced⟩
  | taken deviceId => exact ⟨h.recent, h.spaced⟩
  | closed => exact ⟨h.recent, h.spaced⟩

theorem Remembers.foldl (h : Remembers history) (actions : List Action) :
    Remembers (actions.foldl History.step history) := by
  induction actions generalizing history with
  | nil => exact h
  | cons action actions ih => exact ih (h.step action)

/-- Whatever the order in which the watcher and the worker submit, an event is
accepted again only when as many later ones as the dispatcher remembers were
accepted in between. -/
theorem event_accepted_once (enabled : Bool) (queueSizePerDevice : Nat) (targets : List String)
    (actions : List Action) (dispatcher : Dispatcher)
    (h : openDispatcher enabled queueSizePerDevice targets = .ok dispatcher) :
    ReturnsLate recentEventLimit (run dispatcher actions).accepted := by
  have hopened : dispatcher.recentEvents = [] := by
    unfold openDispatcher at h
    obtain ⟨_, -, h⟩ := bind_eq_ok.mp h
    obtain ⟨_, -, h⟩ := bind_eq_ok.mp h
    obtain ⟨_, -, h⟩ := bind_eq_ok.mp h
    rw [← pure_eq_ok.mp h]
  have hstart : Remembers { dispatcher } := ⟨hopened.trans (by simp [lastOf]), spaced_nil⟩
  exact (hstart.foldl actions).spaced.returnsLate

/-- The watcher sees a job twice and the worker parses it. -/
def sampleActions : List Action := [
  .partialSeen "pos_1" "job.partial",
  .partialSeen "pos_1" "job.partial",
  .jobParsed "pos_1" "/var/spool/pos_1/job/client.raw",
  .jobParsed "pos_1" "/var/spool/pos_1/other/client.raw"]

def sampleDispatcher : Dispatcher where
  enabled := true
  queueSizePerDevice := 64
  queues := [("pos_1", 0)]

theorem event_accepted_once_sample :
    (run sampleDispatcher sampleActions).accepted = [("pos_1", "job"), ("pos_1", "other")] ∧
      ReturnsLate recentEventLimit (run sampleDispatcher sampleActions).accepted :=
  ⟨by decide +kernel, event_accepted_once true 64 ["pos_1"] sampleActions sampleDispatcher rfl⟩

end RetailPrintGuard.Parser.BeeperDispatch
