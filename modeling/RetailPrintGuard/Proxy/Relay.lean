import RetailPrintGuard.Proxy.Spool

/-! # The relay of a session

Two pumps copy bytes between a client and a device and record what they copied.
A supervisor decides how the session ended, and a writer thread drains the queue
of the recorded events. Between two `await`s nothing else of the loop runs, so
that a step here is what one of the parties does from one `await` to the next. -/
namespace RetailPrintGuard.Proxy.Relay
open RetailPrintGuard.Library RetailPrintGuard.Common.Formats RetailPrintGuard.Proxy.Spool

inductive StorageFailurePolicy where
  | continues | abort
deriving DecidableEq

def opposite : Direction → Direction
  | .clientToDevice => .deviceToClient
  | .deviceToClient => .clientToDevice

/-! ## Counters -/

/-- What `next_data` and `next_eof` return. -/
structure Position where
  offset : Nat
  directionSequence : Nat
  observedSequence : Nat
deriving DecidableEq

/-- `_RelayCounters` -/
structure RelayCounters where
  observedEvents : Nat := 0
  observedBytes : ByDirection Nat := .const 0
  observedChunks : ByDirection Nat := .const 0
  directionEvents : ByDirection Nat := .const 0
deriving DecidableEq

def RelayCounters.position (counters : RelayCounters) (direction : Direction) : Position where
  offset := counters.observedBytes.get direction
  directionSequence := counters.directionEvents.get direction
  observedSequence := counters.observedEvents

def RelayCounters.nextData (counters : RelayCounters) (direction : Direction) (length : Nat) :
    RelayCounters where
  observedEvents := counters.observedEvents + 1
  observedBytes :=
    counters.observedBytes.set direction (counters.observedBytes.get direction + length)
  observedChunks := counters.observedChunks.set direction (counters.observedChunks.get direction + 1)
  directionEvents :=
    counters.directionEvents.set direction (counters.directionEvents.get direction + 1)

def RelayCounters.nextEof (counters : RelayCounters) (direction : Direction) : RelayCounters :=
  { counters with
    observedEvents := counters.observedEvents + 1
    directionEvents :=
      counters.directionEvents.set direction (counters.directionEvents.get direction + 1) }

/-! ## Pumps -/

/-- What a pump holds while it forwards: the bytes it read, none at the end of
stream. -/
structure Frame where
  payload : Bytes
  capturedAtUtc : String
  capturedMonotonicNs : Int
  position : Position
deriving DecidableEq

inductive Pump where
  | reading
  | forwarding (frame : Frame)
  | returned
  | raised (error : String)
  | cancelled
deriving DecidableEq

def Pump.done : Pump → Bool
  | .reading | .forwarding _ => false
  | .returned | .raised _ | .cancelled => true

/-- The error of a finished task, if it has one. -/
def Pump.error : Pump → Option String
  | .raised error => some error
  | .cancelled => some "relay pump was cancelled"
  | _ => none

/-- A direction: what its source sent, what its destination took, and its pump. -/
structure Side where
  received : List Bytes := []
  delivered : List Bytes := []
  ended : Bool := false
  pump : Pump := .reading
deriving DecidableEq

/-! ## The capture session -/

structure CaptureSession where
  /-- there is a capture manager -/
  manager : Bool
  policy : StorageFailurePolicy
  accepting : Bool
  sequence : Nat := 0
  errors : List String := []
  droppedChunks : Nat := 0
  droppedBytes : Nat := 0
deriving DecidableEq

namespace CaptureSession

def failureMessage (session : CaptureSession) : String :=
  session.errors.getLast?.getD "capture failed"

/-- `_mark_failure` -/
def markFailure (session : CaptureSession) (error : String) : CaptureSession :=
  let normalized := String.ofList (error.toList.take 1000)
  { session with
    errors :=
      if normalized ∈ session.errors then session.errors else session.errors ++ [normalized]
    accepting := false }

def drop (session : CaptureSession) (payload : Bytes) : CaptureSession :=
  if payload = [] then session
  else
    { session with
      droppedChunks := session.droppedChunks + 1
      droppedBytes := session.droppedBytes + payload.length }

/-- The event a frame is recorded as. -/
def event (session : CaptureSession) (direction : Direction) (frame : Frame)
    (forwardError : Option String) (forwardedAtUtc : String) : CaptureEvent where
  sequence := session.sequence
  observedSequence := frame.position.observedSequence
  directionSequence := frame.position.directionSequence
  direction := direction
  kind := if frame.payload = [] then "eof" else "data"
  capturedAtUtc := frame.capturedAtUtc
  capturedMonotonicNs := frame.capturedMonotonicNs
  offset := frame.position.offset
  payload := frame.payload
  forwarded := forwardError.isNone
  forwardedAtUtc := forwardedAtUtc
  forwardError := forwardError

/-- `record`: the event that was put in the queue, if it was, and the session
after it. -/
def record (session : CaptureSession) (full : Bool) (direction : Direction) (frame : Frame)
    (forwardError : Option String) (forwardedAtUtc : String) :
    Option CaptureEvent × CaptureSession :=
  if !session.accepting || !session.manager then (none, session.drop frame.payload)
  else if full then
    (none, (session.drop frame.payload).markFailure "bounded capture queue is full")
  else
    (some (session.event direction frame forwardError forwardedAtUtc),
      { session with sequence := session.sequence + 1 })

end CaptureSession

/-- The pump after a forwarding and its record. -/
def Pump.next (session : CaptureSession) (frame : Frame) (forwardError : Option String)
    (accepted : Bool) : Pump :=
  let refused := !accepted && session.policy == .abort
  match forwardError with
  | some error =>
    .raised ((if frame.payload = [] then "CaptureAbort: " else "RelayError: ") ++ error)
  | none =>
    if refused then .raised ("CaptureAbort: " ++ session.failureMessage)
    else if frame.payload = [] then .returned
    else .reading

/-! ## The supervisor -/

/-- `_SessionOutcome` -/
structure SessionOutcome where
  complete : Bool
  reason : String
  errors : List String
deriving DecidableEq

inductive Supervisor where
  /-- in the first `asyncio.wait` of `_run_full_duplex` -/
  | watching
  /-- in the second, for the pump that is left -/
  | tail (remaining : Direction)
  /-- on the way out, with the outcome of the session -/
  | leaving (outcome : SessionOutcome)
  | closed
deriving DecidableEq

/-- `_first_task_error`: a set has no order, and one of the pumps comes first. -/
def firstTaskError (pumps : Direction → Pump) (first : Direction) : Option String :=
  [first, opposite first].findSome? fun direction => (pumps direction).error

/-- The first `asyncio.wait` returned. -/
def firstWait (idle : Bool) (failure : Option String) (pumps : Direction → Pump)
    (first : Direction) : Supervisor :=
  if idle then
    .leaving ⟨false, "session_idle_timeout",
      ["no traffic in either direction before the configured timeout"]⟩
  else
    match failure with
    | some error => .leaving ⟨false, "storage_failure", [error]⟩
    | none =>
      match firstTaskError pumps first with
      | some error => .leaving ⟨false, "transport_error", [error]⟩
      | none =>
        match [first, opposite first].filter fun direction => !(pumps direction).done with
        | remaining :: _ => .tail remaining
        | [] => .leaving ⟨true, "clean_bidirectional_eof", []⟩

/-- The second one returned. -/
def tailWait (tailIdle : Bool) (failure : Option String) (remaining : Pump) : Supervisor :=
  if tailIdle then
    .leaving ⟨false, "half_close_tail_idle_timeout",
      ["opposite direction was idle after half-close for the configured response-tail timeout"]⟩
  else
    match failure with
    | some error => .leaving ⟨false, "storage_failure", [error]⟩
    | none =>
      match remaining.error with
      | some error => .leaving ⟨false, "transport_error", [error]⟩
      | none => .leaving ⟨true, "clean_bidirectional_eof", []⟩

/-- The task that finalizes the capture: not there yet, with the summary of the
session, with what it passes to the writer, and ended. -/
inductive Finalizer where
  | none
  | created (summary : SessionCloseSummary)
  | closing (closing : Closing)
  | ended
deriving DecidableEq

/-! ## The writer thread -/

inductive Command where
  | open
  | event (event : CaptureEvent)
  | close (closing : Closing)
deriving DecidableEq

structure State where
  sides : ByDirection Side := .const {}
  counters : RelayCounters := {}
  session : CaptureSession
  supervisor : Supervisor := .watching
  /-- the idle timeout passed, and the one of the tail -/
  idle : Bool := false
  tailIdle : Bool := false
  /-- what the failure watcher returned -/
  failure : Option String := none
  finalizer : Finalizer := .none
  /-- the manager takes commands, and its thread handles them -/
  running : Bool := true
  alive : Bool := true
  /-- the commands of this session in the queue, and the one taken from it -/
  queue : List Command := []
  inHand : Option Command := none
  writer : Option SessionSpool := none
  /-- failures on their way to the loop -/
  notices : List String := []
  /-- the job whose manifest is in place -/
  published : Option JobDirectory := none
deriving DecidableEq

/-- A session whose open command is queued. -/
def State.opened (policy : StorageFailurePolicy) : State where
  session := { manager := true, policy, accepting := true }
  queue := [.open]

/-- `disabled_session` -/
def State.disabled (policy : StorageFailurePolicy) (error : String) : State where
  session :=
    CaptureSession.markFailure { manager := false, policy, accepting := false } error

namespace State

def pump (s : State) (direction : Direction) : Pump := (s.sides.get direction).pump

def setPump (s : State) (direction : Direction) (pump : Pump) : State :=
  { s with sides := s.sides.set direction { s.sides.get direction with pump } }

/-- The queue is full: the commands of the other sessions are in it too. -/
def full (s : State) (queueMaxEvents others : Nat) : Bool :=
  !s.running || decide (queueMaxEvents ≤ s.queue.length + others)

/-- A pump read some bytes. -/
def readData (s : State) (direction : Direction) (payload : Bytes) (capturedAtUtc : String)
    (capturedMonotonicNs : Int) : State :=
  let position := s.counters.position direction
  { s with
    counters := s.counters.nextData direction payload.length
    sides := s.sides.set direction { s.sides.get direction with
      received := (s.sides.get direction).received ++ [payload]
      pump := .forwarding ⟨payload, capturedAtUtc, capturedMonotonicNs, position⟩ } }

/-- A pump read the end of its stream. -/
def readEof (s : State) (direction : Direction) (capturedAtUtc : String)
    (capturedMonotonicNs : Int) : State :=
  let position := s.counters.position direction
  { s with
    counters := s.counters.nextEof direction
    sides := s.sides.set direction { s.sides.get direction with
      ended := true
      pump := .forwarding ⟨[], capturedAtUtc, capturedMonotonicNs, position⟩ } }

/-- A pump forwarded a frame, or failed to, and records it. -/
def forwarded (s : State) (full : Bool) (direction : Direction) (frame : Frame)
    (forwardError : Option String) (forwardedAtUtc : String) : State :=
  let side := s.sides.get direction
  let (event, session) := s.session.record full direction frame forwardError forwardedAtUtc
  { s with
    sides := s.sides.set direction { side with
      delivered :=
        if forwardError.isNone ∧ frame.payload ≠ [] then side.delivered ++ [frame.payload]
        else side.delivered
      pump := Pump.next session frame forwardError event.isSome }
    session
    queue := s.queue ++ (event.map Command.event).toList }

/-- The failure the supervisor watches for. -/
def watchedFailure (s : State) : Option String :=
  if s.session.manager && s.session.policy == .abort then s.failure else none

/-- What the session is closed with. -/
def summary (s : State) (outcome : SessionOutcome) (closedAtUtc : String) (closedMonotonicNs : Int) :
    SessionCloseSummary where
  closedAtUtc := closedAtUtc
  closedMonotonicNs := closedMonotonicNs
  closeReason := outcome.reason
  transportComplete := outcome.complete
  observedBytes := s.counters.observedBytes
  observedChunks := s.counters.observedChunks
  transportErrors := outcome.errors

/-- `finalize` reads the errors and the counters of the session. -/
def closing (s : State) (summary : SessionCloseSummary) : Closing where
  summary := summary
  captureErrors := s.session.errors
  droppedChunks := s.session.droppedChunks
  droppedBytes := s.session.droppedBytes

section
variable (fmt : Codec)

/-- The thread handled an event. -/
def handled (s : State) (event : CaptureEvent) (fault : Option WriteFault) : State :=
  match s.writer with
  | none => { s with inHand := none, notices := s.notices ++ ["capture writer is unavailable"] }
  | some spool =>
    { s with
      inHand := none
      writer := some (handleEvent fmt spool event fault)
      notices :=
        match (append fmt spool event fault).2 with
        | some error => s.notices ++ ["capture write failed: " ++ error]
        | none => s.notices }

/-- The thread published the job. -/
def publish (s : State) (spool : SessionSpool) (closing : Closing) : State :=
  { s with
    inHand := none
    writer := none
    published := some (finalize fmt spool closing) }

end

end State

/-- What can happen next in a session. -/
inductive Step (fmt : Codec) (queueMaxEvents : Nat) (descriptor : SessionDescriptor) :
    State → State → Prop
  -- the pumps
  | read (s : State) (direction : Direction) (payload : Bytes) (capturedAtUtc : String)
      (capturedMonotonicNs : Int) (h : s.pump direction = .reading) (hpayload : payload ≠ []) :
      Step fmt queueMaxEvents descriptor s
        (s.readData direction payload capturedAtUtc capturedMonotonicNs)
  | readEof (s : State) (direction : Direction) (capturedAtUtc : String)
      (capturedMonotonicNs : Int) (h : s.pump direction = .reading) :
      Step fmt queueMaxEvents descriptor s (s.readEof direction capturedAtUtc capturedMonotonicNs)
  | forward (s : State) (direction : Direction) (frame : Frame) (forwardError : Option String)
      (forwardedAtUtc : String) (others : Nat) (h : s.pump direction = .forwarding frame) :
      Step fmt queueMaxEvents descriptor s
        (s.forwarded (s.full queueMaxEvents others) direction frame forwardError forwardedAtUtc)
  | pumpRaises (s : State) (direction : Direction) (error : String)
      (h : (s.pump direction).done = false) :
      Step fmt queueMaxEvents descriptor s (s.setPump direction (.raised error))
  | pumpCancelled (s : State) (direction : Direction) (h : (s.pump direction).done = false)
      (hsupervisor : s.supervisor = .closed ∨ ∃ outcome, s.supervisor = .leaving outcome) :
      Step fmt queueMaxEvents descriptor s (s.setPump direction .cancelled)
  -- the watchers
  | idle (s : State) (h : s.supervisor = .watching) :
      Step fmt queueMaxEvents descriptor s { s with idle := true }
  | tailIdle (s : State) (remaining : Direction) (h : s.supervisor = .tail remaining) :
      Step fmt queueMaxEvents descriptor s { s with tailIdle := true }
  | failure (s : State) (hmanager : s.session.manager = true) (herrors : s.session.errors ≠ [])
      (h : s.failure = none) :
      Step fmt queueMaxEvents descriptor s { s with failure := some s.session.failureMessage }
  -- the supervisor
  | firstWait (s : State) (first : Direction) (h : s.supervisor = .watching)
      (hdone : s.idle = true ∨ s.watchedFailure ≠ none ∨
        ∃ direction, (s.pump direction).done = true) :
      Step fmt queueMaxEvents descriptor s
        { s with supervisor := firstWait s.idle s.watchedFailure s.pump first }
  | tailWait (s : State) (remaining : Direction) (h : s.supervisor = .tail remaining)
      (hdone : s.tailIdle = true ∨ s.watchedFailure ≠ none ∨ (s.pump remaining).done = true) :
      Step fmt queueMaxEvents descriptor s
        { s with supervisor := tailWait s.tailIdle s.watchedFailure (s.pump remaining) }
  | cancelled (s : State) (h : s.supervisor ≠ .closed) :
      Step fmt queueMaxEvents descriptor s
        { s with supervisor :=
            .leaving ⟨false, "service_shutdown", ["session task cancelled"]⟩ }
  | raises (s : State) (h : s.supervisor ≠ .closed) :
      Step fmt queueMaxEvents descriptor s
        { s with supervisor := .leaving ⟨false, "internal_error", []⟩ }
  | close (s : State) (outcome : SessionOutcome) (closedAtUtc : String) (closedMonotonicNs : Int)
      (h : s.supervisor = .leaving outcome) :
      Step fmt queueMaxEvents descriptor s
        { s with
          supervisor := .closed
          finalizer := .created (s.summary outcome closedAtUtc closedMonotonicNs) }
  | lost (s : State) (outcome : SessionOutcome) (h : s.supervisor = .leaving outcome) :
      Step fmt queueMaxEvents descriptor s { s with supervisor := .closed }
  -- the finalizer
  | finalize (s : State) (summary : SessionCloseSummary) (h : s.finalizer = .created summary) :
      Step fmt queueMaxEvents descriptor s
        { s with finalizer :=
            if s.session.manager then .closing (s.closing summary) else .ended }
  | putClose (s : State) (closing : Closing) (others : Nat) (h : s.finalizer = .closing closing)
      (hroom : s.full queueMaxEvents others = false) :
      Step fmt queueMaxEvents descriptor s
        { s with finalizer := .ended, queue := s.queue ++ [.close closing] }
  | closeRefused (s : State) (closing : Closing) (h : s.finalizer = .closing closing) :
      Step fmt queueMaxEvents descriptor s { s with finalizer := .ended }
  -- the writer thread
  | take (s : State) (command : Command) (rest : List Command) (h : s.queue = command :: rest)
      (hfree : s.inHand = none) (halive : s.alive = true) :
      Step fmt queueMaxEvents descriptor s { s with inHand := some command, queue := rest }
  | openSpool (s : State) (h : s.inHand = some .open) :
      Step fmt queueMaxEvents descriptor s
        { s with inHand := none, writer := some { descriptor } }
  | openFails (s : State) (error : String) (h : s.inHand = some .open) :
      Step fmt queueMaxEvents descriptor s
        { s with inHand := none, notices := s.notices ++ ["capture open failed: " ++ error] }
  | handle (s : State) (event : CaptureEvent) (fault : Option WriteFault)
      (h : s.inHand = some (.event event)) :
      Step fmt queueMaxEvents descriptor s (s.handled fmt event fault)
  | publish (s : State) (spool : SessionSpool) (closing : Closing)
      (h : s.inHand = some (.close closing)) (hwriter : s.writer = some spool) :
      Step fmt queueMaxEvents descriptor s (s.publish fmt spool closing)
  | publishFails (s : State) (closing : Closing) (h : s.inHand = some (.close closing)) :
      Step fmt queueMaxEvents descriptor s { s with inHand := none, writer := none }
  | notify (s : State) (error : String) (rest : List String) (h : s.notices = error :: rest) :
      Step fmt queueMaxEvents descriptor s
        { s with notices := rest, session := s.session.markFailure error }
  | unheard (s : State) (error : String) (rest : List String) (h : s.notices = error :: rest)
      (hended : s.finalizer = .ended) :
      Step fmt queueMaxEvents descriptor s { s with notices := rest }
  -- the end of the service
  | stopThread (s : State) (hfree : s.inHand = none) :
      Step fmt queueMaxEvents descriptor s { s with alive := false, writer := none }
  | stopped (s : State) (halive : s.alive = false) :
      Step fmt queueMaxEvents descriptor s { s with running := false }

/-- The states a session can be in. -/
inductive Reachable (fmt : Codec) (queueMaxEvents : Nat) (descriptor : SessionDescriptor) :
    State → Prop
  | opened (policy : StorageFailurePolicy) :
      Reachable fmt queueMaxEvents descriptor (.opened policy)
  | disabled (policy : StorageFailurePolicy) (error : String) :
      Reachable fmt queueMaxEvents descriptor (.disabled policy error)
  | step {s t : State} (h : Reachable fmt queueMaxEvents descriptor s)
      (hstep : Step fmt queueMaxEvents descriptor s t) :
      Reachable fmt queueMaxEvents descriptor t

end RetailPrintGuard.Proxy.Relay
