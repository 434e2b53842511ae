import RetailPrintGuard.Proxy.Relay
import RetailPrintGuard.Proxy.Documents
import RetailPrintGuard.Proxy.SpoolRuns
import RetailPrintGuard.Common.Runtime

/-! # Runs of a relay

What holds of a session in every interleaving of its parties: the events in the
queue and on disk are a prefix of what was read, and a session that is said to
be complete has stopped with both pumps at their end of stream. -/
namespace RetailPrintGuard.Proxy.RelayRuns
open RetailPrintGuard.Library RetailPrintGuard.Common.Formats
open RetailPrintGuard.Proxy.Spool RetailPrintGuard.Proxy.SpoolRuns RetailPrintGuard.Proxy.Documents
open RetailPrintGuard.Proxy.Relay
open RetailPrintGuard.Common.Runtime (runtime)

variable {fmt : Codec} {queueMaxEvents : Nat} {descriptor : SessionDescriptor} {s t : State}

/-! ## The pumps -/

/-- A pump has delivered what it received, but for the frame in its hands. -/
def Moved (side : Side) : Prop :=
  match side.pump with
  | .reading => side.delivered = side.received
  | .forwarding frame =>
    if frame.payload = [] then side.delivered = side.received ∧ side.ended = true
    else side.received = side.delivered ++ [frame.payload]
  | .returned => side.delivered = side.received ∧ side.ended = true
  | .raised _ | .cancelled => True

@[simp] theorem handled_sides (event : CaptureEvent) (fault : Option WriteFault) :
    (s.handled fmt event fault).sides = s.sides := by
  unfold State.handled
  split <;> rfl

@[simp] theorem handled_counters (event : CaptureEvent) (fault : Option WriteFault) :
    (s.handled fmt event fault).counters = s.counters := by
  unfold State.handled
  split <;> rfl

theorem moved_set {side : Side} {direction : Direction} (hs : ∀ d, Moved (s.sides.get d))
    (hside : Moved side) (d : Direction) : Moved ((s.sides.set direction side).get d) := by
  rw [ByDirection.get_set]
  split
  · exact hside
  · exact hs d

/-- A pump goes on after a frame it forwarded, or stops with an error. -/
theorem next_forwarded (session : CaptureSession) (frame : Frame) (accepted : Bool) :
    (∃ error, Pump.next session frame none accepted = .raised error) ∨
      Pump.next session frame none accepted =
        if frame.payload = [] then .returned else .reading := by
  unfold Pump.next
  dsimp only
  split
  · exact Or.inl ⟨_, rfl⟩
  · exact Or.inr rfl

theorem moved_forwarded {side : Side} {session : CaptureSession} {frame : Frame}
    {forwardError : Option String} {accepted : Bool} (hs : Moved side)
    (h : side.pump = .forwarding frame) :
    Moved { side with
      delivered :=
        if forwardError.isNone ∧ frame.payload ≠ [] then side.delivered ++ [frame.payload]
        else side.delivered
      pump := Pump.next session frame forwardError accepted } := by
  unfold Moved at hs ⊢
  rw [h] at hs
  dsimp only at hs ⊢
  cases forwardError with
  | some error => exact trivial
  | none =>
    rcases next_forwarded session frame accepted with ⟨error, hnext⟩ | hnext
    · rw [hnext]
      exact trivial
    · rw [hnext]
      by_cases hpayload : frame.payload = []
      · rw [if_pos hpayload] at hs
        rw [if_pos hpayload, if_neg fun h => h.2 hpayload]
        exact hs
      · rw [if_neg hpayload] at hs
        rw [if_neg hpayload, if_pos ⟨rfl, hpayload⟩]
        exact hs.symm

/-- What every step does to the pumps. -/
theorem step_moved (h : Step fmt queueMaxEvents descriptor s t)
    (hs : ∀ direction, Moved (s.sides.get direction)) :
    ∀ direction, Moved (t.sides.get direction) := by
  cases h with
  | read direction payload _ _ hpump hpayload =>
    refine moved_set hs ?_
    have hside := hs direction
    rw [Moved, show (s.sides.get direction).pump = .reading from hpump] at hside
    unfold Moved
    dsimp only
    rw [if_neg hpayload, hside]
  | readEof direction _ _ hpump =>
    refine moved_set hs ?_
    have hside := hs direction
    rw [Moved, show (s.sides.get direction).pump = .reading from hpump] at hside
    unfold Moved
    dsimp only
    rw [if_pos rfl]
    exact ⟨hside, rfl⟩
  | forward direction frame forwardError forwardedAtUtc others hpump =>
    exact moved_set hs (moved_forwarded (hs direction) hpump)
  | pumpRaises direction error hpump => exact moved_set hs trivial
  | pumpCancelled direction hpump => exact moved_set hs trivial
  | handle event fault =>
    rw [handled_sides]
    exact hs
  | _ => exact hs

/-! ## What a pump that returned leaves -/

/-- A pump that is done stays as it is. -/
theorem step_side (h : Step fmt queueMaxEvents descriptor s t) {direction : Direction}
    (hdone : (s.pump direction).done = true) : t.sides.get direction = s.sides.get direction := by
  have hset : ∀ {other : Direction} {side : Side}, (s.pump other).done = false →
      (s.sides.set other side).get direction = s.sides.get direction := by
    intro other side hother
    rw [ByDirection.get_set, if_neg]
    rintro rfl
    rw [hdone] at hother
    cases hother
  cases h with
  | read other _ _ _ hpump => exact hset (by rw [hpump]; rfl)
  | readEof other _ _ hpump => exact hset (by rw [hpump]; rfl)
  | forward other _ _ _ _ hpump => exact hset (by rw [hpump]; rfl)
  | pumpRaises other _ hpump => exact hset hpump
  | pumpCancelled other hpump => exact hset hpump
  | handle event fault => rw [handled_sides]
  | _ => rfl

/-- Both pumps came to their end of stream. -/
def Settled (s : State) : Prop := ∀ direction, s.pump direction = .returned

theorem Settled.step (hs : Settled s) (h : Step fmt queueMaxEvents descriptor s t) :
    Settled t ∧ t.counters = s.counters := by
  have hdone : ∀ direction, (s.pump direction).done = true := fun direction => by
    rw [hs direction]
    rfl
  refine ⟨fun direction => ?_, ?_⟩
  · show (t.sides.get direction).pump = .returned
    rw [step_side h (hdone direction)]
    exact hs direction
  · cases h with
    | read other _ _ _ hpump => cases (hs other).symm.trans hpump
    | readEof other _ _ hpump => cases (hs other).symm.trans hpump
    | handle event fault => rw [handled_counters]
    | _ => rfl

/-- What was received stays received. -/
theorem step_received (h : Step fmt queueMaxEvents descriptor s t) (direction : Direction) :
    (s.sides.get direction).received.flatten <+: (t.sides.get direction).received.flatten := by
  have hset : ∀ {other : Direction} {side : Side},
      (s.sides.get other).received.flatten <+: side.received.flatten →
      (s.sides.get direction).received.flatten <+:
        ((s.sides.set other side).get direction).received.flatten := by
    intro other side hsound
    rw [ByDirection.get_set]
    split
    · next heq => rwa [heq]
    · exact List.prefix_refl _
  cases h with
  | read other payload _ _ hpump =>
    refine hset ?_
    rw [List.flatten_append]
    exact List.prefix_append _ _
  | readEof => exact hset (List.prefix_refl _)
  | forward => exact hset (List.prefix_refl _)
  | pumpRaises => exact hset (List.prefix_refl _)
  | pumpCancelled => exact hset (List.prefix_refl _)
  | handle event fault =>
    have hsides := @handled_sides fmt s event fault
    exact hsides ▸ List.prefix_refl _
  | _ => exact List.prefix_refl _

/-- The counters count what was received. -/
def Counted (s : State) : Prop := ∀ direction,
  s.counters.observedBytes.get direction = (s.sides.get direction).received.flatten.length

theorem step_counted (h : Step fmt queueMaxEvents descriptor s t) (hs : Counted s) : Counted t := by
  have hset : ∀ {other : Direction} {side : Side},
      side.received = (s.sides.get other).received →
      ∀ direction, s.counters.observedBytes.get direction =
        ((s.sides.set other side).get direction).received.flatten.length := by
    intro other side hreceived direction
    rw [ByDirection.get_set]
    split
    · next heq => rw [hreceived, ← heq, hs]
    · exact hs direction
  cases h with
  | read other payload _ _ hpump =>
    intro direction
    show (s.counters.observedBytes.set other _).get direction =
      ((s.sides.set other _).get direction).received.flatten.length
    rw [ByDirection.get_set, ByDirection.get_set]
    split
    · rw [List.flatten_append, List.length_append, hs other, List.flatten_singleton]
    · exact hs direction
  | readEof => exact hset rfl
  | forward => exact hset rfl
  | pumpRaises => exact hset rfl
  | pumpCancelled => exact hset rfl
  | handle event fault =>
    intro direction
    rw [handled_sides, handled_counters]
    exact hs direction
  | _ => exact hs

/-! ## How a session ends -/

theorem error_eq_none {pump : Pump} (hdone : pump.done = true) (herror : pump.error = none) :
    pump = .returned := by
  cases pump with
  | returned => rfl
  | reading | forwarding => cases hdone
  | raised | cancelled => cases herror

theorem firstTaskError_eq_none {pumps : Direction → Pump} {first : Direction}
    (h : firstTaskError pumps first = none) (direction : Direction) :
    (pumps direction).error = none := by
  unfold firstTaskError at h
  rw [List.findSome?_eq_none_iff] at h
  refine h direction ?_
  cases first <;> cases direction <;> decide

/-- The first wait ends a complete session only when both pumps returned. -/
theorem firstWait_complete {idle : Bool} {failure : Option String} {pumps : Direction → Pump}
    {first : Direction} {outcome : SessionOutcome}
    (h : firstWait idle failure pumps first = .leaving outcome) (hcomplete : outcome.complete = true)
    (direction : Direction) : pumps direction = .returned := by
  unfold firstWait at h
  split at h
  · cases h
    cases hcomplete
  · split at h
    · cases h
      cases hcomplete
    · split at h
      · cases h
        cases hcomplete
      · next hnone =>
        split at h
        · cases h
        · next hempty =>
          rw [List.filter_eq_nil_iff] at hempty
          have hdone := hempty direction (by cases first <;> cases direction <;> decide)
          exact error_eq_none (by simpa using hdone) (firstTaskError_eq_none hnone direction)

/-- It goes on with one pump when the other returned. -/
theorem firstWait_tail {idle : Bool} {failure : Option String} {pumps : Direction → Pump}
    {first remaining : Direction} (h : firstWait idle failure pumps first = .tail remaining)
    (hdone : idle = true ∨ failure ≠ none ∨ ∃ direction, (pumps direction).done = true) :
    pumps (opposite remaining) = .returned := by
  unfold firstWait at h
  split at h
  · cases h
  · next hidle =>
    split at h
    · cases h
    · split at h
      · cases h
      · next hnone =>
        split at h
        · next rest hfilter =>
          cases h
          obtain ⟨direction, hdirection⟩ :=
            (hdone.resolve_left hidle).resolve_left fun h => h rfl
          have hremaining : (pumps remaining).done = false := by
            have hmem : remaining ∈ [first, opposite first].filter fun d => !(pumps d).done := by
              rw [hfilter]
              exact List.mem_cons_self
            simpa using (List.mem_filter.mp hmem).2
          have hother : direction = opposite remaining := by
            have hne : direction ≠ remaining := by
              rintro rfl
              rw [hremaining] at hdirection
              cases hdirection
            revert hne
            cases direction <;> cases remaining <;> decide
          rw [← hother]
          exact error_eq_none hdirection (firstTaskError_eq_none hnone direction)
        · cases h

theorem tailWait_complete {tailIdle : Bool} {failure : Option String} {pump : Pump}
    {outcome : SessionOutcome} (h : tailWait tailIdle failure pump = .leaving outcome)
    (hcomplete : outcome.complete = true)
    (hdone : tailIdle = true ∨ failure ≠ none ∨ pump.done = true) : pump = .returned := by
  unfold tailWait at h
  split at h
  · cases h
    cases hcomplete
  · next hidle =>
    split at h
    · cases h
      cases hcomplete
    · split at h
      · cases h
        cases hcomplete
      · next hnone =>
        exact error_eq_none ((hdone.resolve_left hidle).resolve_left fun h => h rfl) hnone

theorem tailWait_not_tail {tailIdle : Bool} {failure : Option String} {pump : Pump}
    {remaining : Direction} : tailWait tailIdle failure pump ≠ .tail remaining := by
  unfold tailWait
  split
  · exact fun h => nomatch h
  · split
    · exact fun h => nomatch h
    · split <;> exact fun h => nomatch h

/-- A summary of a complete session is written when both pumps returned, and
states what was read. -/
def Vouched (s : State) (summary : SessionCloseSummary) : Prop :=
  summary.transportComplete = true →
    Settled s ∧ summary.observedBytes = s.counters.observedBytes

theorem Vouched.step {summary : SessionCloseSummary} (hs : Vouched s summary)
    (h : Step fmt queueMaxEvents descriptor s t) : Vouched t summary := by
  intro hcomplete
  obtain ⟨hsettled, hobserved⟩ := hs hcomplete
  obtain ⟨hsettled', hcounters⟩ := hsettled.step h
  exact ⟨hsettled', hcounters ▸ hobserved⟩

/-- The commands that are still to be handled. -/
def pending (s : State) : List Command := s.inHand.toList ++ s.queue

/-- What the parties hold of the end of a session. -/
structure Ends (s : State) : Prop where
  leaving : ∀ outcome, s.supervisor = .leaving outcome → outcome.complete = true → Settled s
  tail : ∀ remaining, s.supervisor = .tail remaining → s.pump (opposite remaining) = .returned
  created : ∀ summary, s.finalizer = .created summary → Vouched s summary
  closing : ∀ closing, s.finalizer = .closing closing → Vouched s closing.summary
  pending : ∀ closing, .close closing ∈ pending s → Vouched s closing.summary

@[simp] theorem handled_supervisor (event : CaptureEvent) (fault : Option WriteFault) :
    (s.handled fmt event fault).supervisor = s.supervisor := by
  unfold State.handled
  split <;> rfl

@[simp] theorem handled_finalizer (event : CaptureEvent) (fault : Option WriteFault) :
    (s.handled fmt event fault).finalizer = s.finalizer := by
  unfold State.handled
  split <;> rfl

@[simp] theorem pending_handled (event : CaptureEvent) (fault : Option WriteFault) :
    pending (s.handled fmt event fault) = s.queue := by
  unfold State.handled
  split <;> rfl

theorem step_leaving (h : Step fmt queueMaxEvents descriptor s t) (hs : Ends s) :
    ∀ outcome, t.supervisor = .leaving outcome → outcome.complete = true → Settled t := by
  have hstep := h
  cases h with
  | firstWait first hwatching hdone =>
    exact fun outcome houtcome hcomplete => firstWait_complete houtcome hcomplete
  | tailWait remaining htail hdone =>
    intro outcome houtcome hcomplete direction
    have hremaining := tailWait_complete houtcome hcomplete hdone
    by_cases heq : direction = remaining
    · rw [heq]
      exact hremaining
    · have hother : direction = opposite remaining := by
        revert heq
        cases direction <;> cases remaining <;> decide
      rw [hother]
      exact hs.tail remaining htail
  | cancelled =>
    intro outcome houtcome hcomplete
    cases houtcome
    cases hcomplete
  | raises =>
    intro outcome houtcome hcomplete
    cases houtcome
    cases hcomplete
  | close => exact fun outcome houtcome => nomatch houtcome
  | lost => exact fun outcome houtcome => nomatch houtcome
  | handle event fault =>
    intro outcome houtcome hcomplete
    rw [handled_supervisor] at houtcome
    exact ((hs.leaving outcome houtcome hcomplete).step hstep).1
  | _ => exact fun outcome houtcome hcomplete =>
      ((hs.leaving outcome houtcome hcomplete).step hstep).1

theorem step_tail (h : Step fmt queueMaxEvents descriptor s t) (hs : Ends s) :
    ∀ remaining, t.supervisor = .tail remaining → t.pump (opposite remaining) = .returned := by
  have hkeep : ∀ remaining, s.supervisor = .tail remaining →
      t.pump (opposite remaining) = .returned := by
    intro remaining htail
    have hreturned := hs.tail remaining htail
    show (t.sides.get (opposite remaining)).pump = .returned
    rw [step_side h (by rw [hreturned]; rfl)]
    exact hreturned
  cases h with
  | firstWait first hwatching hdone => exact fun remaining htail => firstWait_tail htail hdone
  | tailWait remaining htail hdone => exact fun other hother => absurd hother tailWait_not_tail
  | cancelled => exact fun remaining htail => nomatch htail
  | raises => exact fun remaining htail => nomatch htail
  | close => exact fun remaining htail => nomatch htail
  | lost => exact fun remaining htail => nomatch htail
  | handle event fault =>
    intro remaining htail
    rw [handled_supervisor] at htail
    exact hkeep remaining htail
  | _ => exact hkeep

theorem step_created (h : Step fmt queueMaxEvents descriptor s t) (hs : Ends s) :
    ∀ summary, t.finalizer = .created summary → Vouched t summary := by
  have hkeep : ∀ summary, s.finalizer = .created summary → Vouched t summary :=
    fun summary hsummary => (hs.created summary hsummary).step h
  cases h with
  | close outcome closedAtUtc closedMonotonicNs hleaving =>
    intro summary hsummary
    cases hsummary
    exact fun hcomplete => ⟨hs.leaving outcome hleaving hcomplete, rfl⟩
  | finalize summary hcreated =>
    intro other hother
    dsimp only at hother
    split at hother <;> cases hother
  | putClose => exact fun summary hsummary => nomatch hsummary
  | closeRefused => exact fun summary hsummary => nomatch hsummary
  | handle event fault =>
    intro summary hsummary
    rw [handled_finalizer] at hsummary
    exact hkeep summary hsummary
  | _ => exact hkeep

theorem step_closing (h : Step fmt queueMaxEvents descriptor s t) (hs : Ends s) :
    ∀ closing, t.finalizer = .closing closing → Vouched t closing.summary := by
  have hkeep : ∀ closing, s.finalizer = .closing closing → Vouched t closing.summary :=
    fun closing hclosing => (hs.closing closing hclosing).step h
  have hstep := h
  cases h with
  | close => exact fun closing hclosing => nomatch hclosing
  | finalize summary hcreated =>
    intro closing hclosing
    dsimp only at hclosing
    split at hclosing
    · cases hclosing
      exact (hs.created summary hcreated).step hstep
    · cases hclosing
  | putClose => exact fun closing hclosing => nomatch hclosing
  | closeRefused => exact fun closing hclosing => nomatch hclosing
  | handle event fault =>
    intro closing hclosing
    rw [handled_finalizer] at hclosing
    exact hkeep closing hclosing
  | _ => exact hkeep

/-- The commands that are still to be handled after a step. -/
theorem step_pending_mem (h : Step fmt queueMaxEvents descriptor s t) {closing : Closing}
    (hmem : .close closing ∈ pending t) :
    .close closing ∈ pending s ∨ s.finalizer = .closing closing := by
  cases h with
  | forward direction frame forwardError forwardedAtUtc others hpump =>
    rw [pending] at hmem
    show Command.close closing ∈ s.inHand.toList ++ s.queue ∨ _
    rcases List.mem_append.mp hmem with hmem | hmem
    · exact Or.inl (List.mem_append_left _ hmem)
    · rcases List.mem_append.mp hmem with hmem | hmem
      · exact Or.inl (List.mem_append_right _ hmem)
      · obtain ⟨event, -, hevent⟩ := Option.map_eq_some_iff.mp (Option.mem_toList.mp hmem)
        cases hevent
  | putClose other others hclosing =>
    rcases List.mem_append.mp hmem with hmem | hmem
    · exact Or.inl (List.mem_append_left _ hmem)
    · rcases List.mem_append.mp hmem with hmem | hmem
      · exact Or.inl (List.mem_append_right _ hmem)
      · cases List.mem_singleton.mp hmem
        exact Or.inr hclosing
  | take command rest hqueue hfree =>
    refine Or.inl ?_
    rw [pending, hfree, hqueue]
    exact hmem
  | openSpool => exact Or.inl (List.mem_append_right _ hmem)
  | openFails => exact Or.inl (List.mem_append_right _ hmem)
  | handle event fault =>
    rw [pending_handled] at hmem
    exact Or.inl (List.mem_append_right _ hmem)
  | publish => exact Or.inl (List.mem_append_right _ hmem)
  | publishFails => exact Or.inl (List.mem_append_right _ hmem)
  | _ => exact Or.inl hmem

theorem step_ends (h : Step fmt queueMaxEvents descriptor s t) (hs : Ends s) : Ends t where
  leaving := step_leaving h hs
  tail := step_tail h hs
  created := step_created h hs
  closing := step_closing h hs
  pending closing hmem := by
    rcases step_pending_mem h hmem with hmem | hclosing
    · exact (hs.pending closing hmem).step h
    · exact (hs.closing closing hclosing).step h

/-! ## The writer -/

theorem writeRaw_nil (spool : SessionSpool) (direction : Direction) :
    spool.writeRaw direction [] = spool := by
  have hraw : spool.raw.set direction (spool.raw.get direction ++ []) = spool.raw := by
    refine ByDirection.ext_get fun other => ?_
    rw [ByDirection.get_set, List.append_nil]
    split
    · next heq => rw [heq]
    · rfl
  rw [SessionSpool.writeRaw, hraw]

theorem markError_errors (spool : SessionSpool) (error : String) :
    (spool.markError error).errors ≠ [] := by
  rw [SessionSpool.markError]
  exact List.append_ne_nil_of_right_ne_nil _ (List.cons_ne_nil _ _)

/-- An event that leaves no error was accepted and written. -/
theorem handleEvent_errors {spool : SessionSpool} {event : CaptureEvent}
    {fault : Option WriteFault} (h : (handleEvent fmt spool event fault).errors = []) :
    Accepted spool event ∧ handleEvent fmt spool event fault = written fmt spool event := by
  unfold handleEvent at h ⊢
  unfold append at h ⊢
  cases hnone : appendError spool event with
  | some error =>
    rw [hnone] at h
    exact absurd h (markError_errors _ _)
  | none =>
    refine ⟨appendError_eq_none.mp hnone, ?_⟩
    rw [hnone] at h
    cases fault with
    | none => rfl
    | some fault =>
      cases fault with
      | timeline count error => exact absurd h (markError_errors _ _)
      | raw count error =>
        by_cases hpayload : event.payload = []
        · simp only [if_pos hpayload]
          unfold written
          rw [hpayload, writeRaw_nil]
        · simp only [if_neg hpayload] at h
          exact absurd h (markError_errors _ _)

/-! ## The events on their way to disk -/

def eventsOf (commands : List Command) : List CaptureEvent :=
  commands.filterMap fun command =>
    match command with
    | .event event => some event
    | _ => none

theorem eventsOf_append (commands more : List Command) :
    eventsOf (commands ++ more) = eventsOf commands ++ eventsOf more :=
  List.filterMap_append

theorem payloads_append (events more : List CaptureEvent) (direction : Direction) :
    payloads (events ++ more) direction = payloads events direction ++ payloads more direction := by
  unfold payloads
  rw [List.filter_append, List.flatMap_append]

theorem payloads_singleton (event : CaptureEvent) (direction : Direction) :
    payloads [event] direction = if direction = event.direction then event.payload else [] := by
  rw [payloads_cons, payloads_nil, List.append_nil]

/-- The bytes a pump has read and not recorded. -/
def inFlight : Pump → Bytes
  | .forwarding frame => frame.payload
  | _ => []

/-- The bytes of a direction that were recorded: handled by the thread, or still
in the queue. -/
def recorded (s : State) (done : List CaptureEvent) (direction : Direction) : Bytes :=
  payloads (done ++ eventsOf (pending s)) direction

/-- What is recorded is what was read, up to the first event that was refused. -/
structure Captured (fmt : Codec) (descriptor : SessionDescriptor) (s : State)
    (done : List CaptureEvent) : Prop where
  read : ∀ direction, recorded s done direction <+: (s.sides.get direction).received.flatten
  whole : s.session.accepting = true → ∀ direction, (s.pump direction).done = false →
    recorded s done direction ++ inFlight (s.pump direction) =
      (s.sides.get direction).received.flatten
  managed : s.session.accepting = true → s.session.manager = true
  head : .open ∉ (pending s).tail
  fresh : .open ∈ pending s → done = []
  writer : ∀ spool, s.writer = some spool → spool.errors = [] →
    appendAll fmt { descriptor } done = some spool

theorem record_cases (session : CaptureSession) (full : Bool) (direction : Direction) (frame : Frame)
    (forwardError : Option String) (forwardedAtUtc : String)
    (hmanaged : session.accepting = true → session.manager = true) :
    (session.record full direction frame forwardError forwardedAtUtc =
        (some (session.event direction frame forwardError forwardedAtUtc),
          { session with sequence := session.sequence + 1 }) ∧ session.accepting = true) ∨
      ((session.record full direction frame forwardError forwardedAtUtc).1 = none ∧
        (session.record full direction frame forwardError forwardedAtUtc).2.accepting = false) := by
  unfold CaptureSession.record
  cases haccepting : session.accepting with
  | false =>
    refine Or.inr ⟨rfl, ?_⟩
    show (session.drop frame.payload).accepting = false
    unfold CaptureSession.drop
    split <;> exact haccepting
  | true =>
    rw [hmanaged haccepting]
    cases full with
    | true => exact Or.inr ⟨rfl, rfl⟩
    | false => exact Or.inl ⟨rfl, rfl⟩

theorem mem_tail_append {command : Command} {commands : List Command} {last : Command}
    (h : command ∉ commands.tail) (hlast : command ≠ last) :
    command ∉ (commands ++ [last]).tail := by
  cases commands with
  | nil => exact List.not_mem_nil
  | cons first rest =>
    rw [List.cons_append, List.tail_cons, List.mem_append, List.mem_singleton]
    exact fun hmem => hmem.elim h hlast

theorem mem_of_open_append {commands : List Command} {last : Command} (hlast : .open ≠ last)
    (h : .open ∈ commands ++ [last]) : .open ∈ commands := by
  rcases List.mem_append.mp h with h | h
  · exact h
  · exact absurd (List.mem_singleton.mp h) hlast

/-- A command that is no event joins the queue. -/
theorem Captured.close {done : List CaptureEvent} (hs : Captured fmt descriptor s done)
    (closing : Closing) :
    Captured fmt descriptor
      { s with finalizer := .ended, queue := s.queue ++ [.close closing] } done := by
  have hpending : pending { s with finalizer := .ended, queue := s.queue ++ [.close closing] } =
      pending s ++ [.close closing] := (List.append_assoc _ _ _).symm
  have hrecorded : ∀ direction,
      recorded { s with finalizer := .ended, queue := s.queue ++ [.close closing] } done direction =
        recorded s done direction := by
    intro direction
    rw [recorded, hpending, eventsOf_append]
    exact congrArg (payloads · direction) (congrArg (done ++ ·) (List.append_nil _))
  exact {
    read := fun direction => hrecorded direction ▸ hs.read direction
    whole := fun haccepting direction hdone => hrecorded direction ▸
      hs.whole haccepting direction hdone
    managed := hs.managed
    head := hpending ▸ mem_tail_append hs.head Command.noConfusion
    fresh := fun hmem => hs.fresh (mem_of_open_append Command.noConfusion (hpending ▸ hmem))
    writer := hs.writer }

/-- The thread has handled the first command. -/
theorem Captured.handled {done : List CaptureEvent} {command : Command} {rest : List Command}
    (hs : Captured fmt descriptor s done) (hpending : pending s = command :: rest)
    (hsides : t.sides = s.sides) (hsession : t.session = s.session) (hrest : pending t = rest)
    (hwriter : ∀ spool, t.writer = some spool → spool.errors = [] →
      appendAll fmt { descriptor } (done ++ eventsOf [command]) = some spool) :
    Captured fmt descriptor t (done ++ eventsOf [command]) := by
  have hrecorded : ∀ direction,
      recorded t (done ++ eventsOf [command]) direction = recorded s done direction := by
    intro direction
    rw [recorded, recorded, hrest, hpending, List.append_assoc, ← eventsOf_append,
      List.singleton_append]
  have hpump : ∀ direction, t.pump direction = s.pump direction := fun direction => by
    rw [State.pump, hsides]
    rfl
  have hopen : .open ∉ rest := by
    have hhead := hs.head
    rwa [hpending] at hhead
  exact {
    read := fun direction => by
      rw [hrecorded, hsides]
      exact hs.read direction
    whole := fun haccepting direction hdone => by
      rw [hpump] at hdone
      rw [hrecorded, hpump, hsides]
      exact hs.whole (hsession ▸ haccepting) direction hdone
    managed := hsession ▸ hs.managed
    head := hrest ▸ fun hmem => hopen (List.mem_of_mem_tail hmem)
    fresh := fun hmem => absurd (hrest ▸ hmem) hopen
    writer := hwriter }

/-- A pump that stops records nothing more. -/
theorem Captured.stop {done : List CaptureEvent} (hs : Captured fmt descriptor s done)
    {direction : Direction} {pump : Pump} (hpump : pump.done = true) :
    Captured fmt descriptor (s.setPump direction pump) done where
  read other := by
    show recorded s done other <+: ((s.sides.set direction _).get other).received.flatten
    rw [ByDirection.get_set]
    split
    · next heq => exact heq ▸ hs.read direction
    · exact hs.read other
  whole haccepting other hdone := by
    have hdone : ((s.sides.set direction _).get other).pump.done = false := hdone
    show recorded s done other ++ inFlight ((s.sides.set direction _).get other).pump =
      ((s.sides.set direction _).get other).received.flatten
    rw [ByDirection.get_set] at hdone ⊢
    split at hdone
    · rw [hpump] at hdone
      cases hdone
    · next hne =>
      rw [if_neg hne]
      exact hs.whole haccepting other hdone
  managed := hs.managed
  head := hs.head
  fresh := hs.fresh
  writer := hs.writer

/-- A pump that read something has it in its hands. -/
theorem Captured.hold {done : List CaptureEvent} (hs : Captured fmt descriptor s done)
    {direction : Direction} {side : Side} {counters : RelayCounters}
    (hpump : s.pump direction = .reading)
    (hreceived : side.received.flatten =
      (s.sides.get direction).received.flatten ++ inFlight side.pump) :
    Captured fmt descriptor { s with sides := s.sides.set direction side, counters } done where
  read other := by
    show recorded s done other <+: ((s.sides.set direction side).get other).received.flatten
    rw [ByDirection.get_set]
    split
    · next heq =>
      rw [hreceived, heq]
      exact (hs.read direction).trans (List.prefix_append _ _)
    · exact hs.read other
  whole haccepting other hdone := by
    have hdone : ((s.sides.set direction side).get other).pump.done = false := hdone
    show recorded s done other ++ inFlight ((s.sides.set direction side).get other).pump =
      ((s.sides.set direction side).get other).received.flatten
    rw [ByDirection.get_set] at hdone ⊢
    split
    · next heq =>
      have hwhole := hs.whole haccepting direction (by rw [hpump]; rfl)
      rw [hpump, show inFlight .reading = [] from rfl, List.append_nil] at hwhole
      rw [hreceived, heq, hwhole]
    · next hne =>
      rw [if_neg hne] at hdone
      exact hs.whole haccepting other hdone
  managed := hs.managed
  head := hs.head
  fresh := hs.fresh
  writer := hs.writer

theorem inFlight_next (session : CaptureSession) (frame : Frame) (forwardError : Option String)
    (accepted : Bool) : inFlight (Pump.next session frame forwardError accepted) = [] := by
  cases forwardError with
  | some error => rfl
  | none =>
    rcases next_forwarded session frame accepted with ⟨error, hnext⟩ | hnext
    · rw [hnext]
      rfl
    · rw [hnext]
      split <;> rfl

/-- A frame is recorded, or the session accepts nothing more. -/
theorem Captured.forwarded {done : List CaptureEvent} (hs : Captured fmt descriptor s done)
    {full : Bool} {direction : Direction} {frame : Frame} {forwardError : Option String}
    {forwardedAtUtc : String} (hpump : s.pump direction = .forwarding frame) :
    Captured fmt descriptor
      (s.forwarded full direction frame forwardError forwardedAtUtc) done := by
  have hreceived : ∀ other,
      ((s.forwarded full direction frame forwardError forwardedAtUtc).sides.get other).received =
        (s.sides.get other).received := by
    intro other
    show ((s.sides.set direction _).get other).received = _
    rw [ByDirection.get_set]
    split
    · next heq => rw [heq]
    · rfl
  have hwriter : (s.forwarded full direction frame forwardError forwardedAtUtc).writer =
      s.writer := rfl
  rcases record_cases s.session full direction frame forwardError forwardedAtUtc hs.managed with
    ⟨hrecord, haccepting⟩ | ⟨hnone, hclosed⟩
  · -- the event joins the queue
    have hsession : (s.forwarded full direction frame forwardError forwardedAtUtc).session =
        { s.session with sequence := s.session.sequence + 1 } := by
      show (s.session.record full direction frame forwardError forwardedAtUtc).2 = _
      rw [hrecord]
    have hpending : pending (s.forwarded full direction frame forwardError forwardedAtUtc) =
        pending s ++ [.event (s.session.event direction frame forwardError forwardedAtUtc)] := by
      show s.inHand.toList ++ (s.queue ++ ((s.session.record full direction frame forwardError
        forwardedAtUtc).1.map Command.event).toList) = _
      rw [hrecord, ← List.append_assoc]
      rfl
    have hrecorded : ∀ other,
        recorded (s.forwarded full direction frame forwardError forwardedAtUtc) done other =
          recorded s done other ++ if other = direction then frame.payload else [] := by
      intro other
      rw [recorded, hpending, eventsOf_append, ← List.append_assoc, payloads_append]
      exact congrArg (recorded s done other ++ ·) (payloads_singleton _ other)
    have hwhole := hs.whole haccepting direction (by rw [hpump]; rfl)
    rw [hpump] at hwhole
    exact {
      read := fun other => by
        rw [hrecorded, hreceived]
        split
        · next heq =>
          rw [heq]
          exact hwhole ▸ List.prefix_refl _
        · rw [List.append_nil]
          exact hs.read other
      whole := fun _ other hdone => by
        rw [hrecorded, hreceived]
        have hdone : ((s.sides.set direction _).get other).pump.done = false := hdone
        show recorded s done other ++ _ ++ inFlight ((s.sides.set direction _).get other).pump = _
        rw [ByDirection.get_set] at hdone ⊢
        split
        · next heq => rw [inFlight_next, List.append_nil, heq]; exact hwhole
        · next hne =>
          rw [if_neg hne] at hdone
          rw [List.append_nil]
          exact hs.whole haccepting other hdone
      managed := fun _ => hsession ▸ hs.managed haccepting
      head := hpending ▸ mem_tail_append hs.head Command.noConfusion
      fresh := fun hmem => hs.fresh (mem_of_open_append Command.noConfusion (hpending ▸ hmem))
      writer := hwriter ▸ hs.writer }
  · -- nothing more is accepted
    have hpending : pending (s.forwarded full direction frame forwardError forwardedAtUtc) =
        pending s := by
      show s.inHand.toList ++ (s.queue ++ ((s.session.record full direction frame forwardError
        forwardedAtUtc).1.map Command.event).toList) = _
      rw [hnone]
      exact congrArg (s.inHand.toList ++ ·) (List.append_nil _)
    have haccepting : (s.forwarded full direction frame forwardError
        forwardedAtUtc).session.accepting ≠ true := by
      show (s.session.record full direction frame forwardError forwardedAtUtc).2.accepting ≠ true
      rw [hclosed]
      exact Bool.false_ne_true
    exact {
      read := fun other => by
        rw [recorded, hpending, hreceived]
        exact hs.read other
      whole := fun h => absurd h haccepting
      managed := fun h => absurd h haccepting
      head := hpending ▸ hs.head
      fresh := hpending ▸ hs.fresh
      writer := hwriter ▸ hs.writer }

/-- The events the thread is done with after a step: a command that leaves its
hand is handled. -/
def doneAfter (s t : State) (done : List CaptureEvent) : List CaptureEvent :=
  if t.inHand = none then done ++ eventsOf s.inHand.toList else done

theorem doneAfter_same {done : List CaptureEvent} (h : t.inHand = s.inHand) :
    doneAfter s t done = done := by
  rw [doneAfter, h]
  split
  · next hnone =>
    rw [hnone]
    exact List.append_nil done
  · rfl

theorem doneAfter_handled {done : List CaptureEvent} {command : Command}
    (hs : s.inHand = some command) (ht : t.inHand = none) :
    doneAfter s t done = done ++ eventsOf [command] := by
  rw [doneAfter, if_pos ht, hs]
  rfl

/-- A step that leaves the hand of the thread as it is. -/
theorem Captured.same {done : List CaptureEvent} (h : t.inHand = s.inHand)
    (ht : Captured fmt descriptor t done) : Captured fmt descriptor t (doneAfter s t done) := by
  rw [doneAfter_same h]
  exact ht

/-- A step in which the thread is done with a command. -/
theorem Captured.done {done : List CaptureEvent} {command : Command} (hs : s.inHand = some command)
    (ht : t.inHand = none) (h : Captured fmt descriptor t (done ++ eventsOf [command])) :
    Captured fmt descriptor t (doneAfter s t done) := by
  rw [doneAfter_handled hs ht]
  exact h

@[simp] theorem handled_inHand (event : CaptureEvent) (fault : Option WriteFault) :
    (s.handled fmt event fault).inHand = none := by
  unfold State.handled
  split <;> rfl

theorem step_captured {done : List CaptureEvent} (h : Step fmt queueMaxEvents descriptor s t)
    (hs : Captured fmt descriptor s done) : Captured fmt descriptor t (doneAfter s t done) := by
  cases h with
  | read direction payload _ _ hpump hpayload =>
    refine Captured.same rfl ?_
    exact hs.hold hpump (by rw [List.flatten_append, List.flatten_singleton]; rfl)
  | readEof direction _ _ hpump =>
    refine Captured.same rfl ?_
    exact hs.hold hpump (List.append_nil _).symm
  | forward direction frame forwardError forwardedAtUtc others hpump =>
    refine Captured.same rfl ?_
    exact hs.forwarded hpump
  | pumpRaises =>
    refine Captured.same rfl ?_
    exact hs.stop rfl
  | pumpCancelled =>
    refine Captured.same rfl ?_
    exact hs.stop rfl
  | putClose closing others hclosing hroom =>
    refine Captured.same rfl ?_
    exact hs.close closing
  | take command rest hqueue hfree halive =>
    have hpending : pending { s with inHand := some command, queue := rest } = pending s := by
      rw [pending, pending, hfree, hqueue]
      rfl
    rw [doneAfter, if_neg (Option.some_ne_none command)]
    exact {
      read := fun direction => by
        rw [recorded, hpending]
        exact hs.read direction
      whole := fun haccepting direction hdone => by
        rw [recorded, hpending]
        exact hs.whole haccepting direction hdone
      managed := hs.managed
      head := hpending ▸ hs.head
      fresh := hpending ▸ hs.fresh
      writer := hs.writer }
  | openSpool hopen =>
    have hpending : pending s = .open :: s.queue := by
      rw [pending, hopen]
      rfl
    have hfresh := hs.fresh (hpending ▸ List.mem_cons_self)
    refine Captured.done hopen rfl (hs.handled hpending rfl rfl rfl fun spool hspool _ => ?_)
    cases hspool
    rw [hfresh]
    rfl
  | openFails error hopen =>
    have hpending : pending s = .open :: s.queue := by
      rw [pending, hopen]
      rfl
    refine Captured.done hopen rfl (hs.handled hpending rfl rfl rfl fun spool hspool herrors => ?_)
    have hwritten := hs.writer spool hspool herrors
    rwa [← List.append_nil done] at hwritten
  | handle event fault hevent =>
    have hpending : pending s = .event event :: s.queue := by
      rw [pending, hevent]
      rfl
    refine Captured.done hevent (handled_inHand event fault) (hs.handled hpending
      (handled_sides event fault) ?_ (pending_handled event fault) fun spool hspool herrors => ?_)
    · unfold State.handled
      split <;> rfl
    · unfold State.handled at hspool
      split at hspool
      · next hnone => cases hnone.symm.trans hspool
      · next before hbefore =>
        obtain rfl : handleEvent fmt before event fault = spool := Option.some.inj hspool
        obtain ⟨haccepted, hwritten⟩ := handleEvent_errors herrors
        rw [hwritten] at herrors ⊢
        have hbefore := hs.writer before hbefore herrors
        exact (appendAll_append fmt).mpr ⟨before, hbefore, (appendAll_cons fmt).mpr ⟨haccepted, rfl⟩⟩
  | publish spool closing hclose hwriter =>
    have hpending : pending s = .close closing :: s.queue := by
      rw [pending, hclose]
      rfl
    exact Captured.done hclose rfl
      (hs.handled hpending rfl rfl rfl fun _ hspool => nomatch hspool)
  | publishFails closing hclose =>
    have hpending : pending s = .close closing :: s.queue := by
      rw [pending, hclose]
      rfl
    exact Captured.done hclose rfl
      (hs.handled hpending rfl rfl rfl fun _ hspool => nomatch hspool)
  | notify error rest hnotices =>
    refine Captured.same rfl ?_
    exact ⟨hs.read, fun h => (nomatch h), fun h => (nomatch h), hs.head, hs.fresh, hs.writer⟩
  | stopThread =>
    refine Captured.same rfl ?_
    exact ⟨hs.read, hs.whole, hs.managed, hs.head, hs.fresh, fun _ hspool => nomatch hspool⟩
  | _ =>
    refine Captured.same rfl ?_
    exact ⟨hs.read, hs.whole, hs.managed, hs.head, hs.fresh, hs.writer⟩

/-! ## The published job -/

/-- A published job is what the thread made of a spool, with a vouched summary,
and where the spool had no error its raw files hold the first bytes read. -/
def PublishedSoundly (fmt : Codec) (s : State) : Prop :=
  ∀ job, s.published = some job → ∃ spool closing, job = finalize fmt spool closing ∧
    Vouched s closing.summary ∧
    (spool.errors = [] → Consistent spool ∧
      ∀ direction, spool.raw.get direction <+: (s.sides.get direction).received.flatten)

theorem step_published {done : List CaptureEvent} (h : Step fmt queueMaxEvents descriptor s t)
    (hcaptured : Captured fmt descriptor s done) (hends : Ends s)
    (hs : PublishedSoundly fmt s) : PublishedSoundly fmt t := by
  have hkeep : ∀ job, s.published = some job → ∃ spool closing, job = finalize fmt spool closing ∧
      Vouched t closing.summary ∧ (spool.errors = [] → Consistent spool ∧
        ∀ direction, spool.raw.get direction <+: (t.sides.get direction).received.flatten) := by
    intro job hjob
    obtain ⟨spool, closing, heq, hvouched, hraw⟩ := hs job hjob
    exact ⟨spool, closing, heq, hvouched.step h, fun herrors => ⟨(hraw herrors).1,
      fun direction => ((hraw herrors).2 direction).trans (step_received h direction)⟩⟩
  have hstep := h
  cases h with
  | publish spool closing hclose hwriter =>
    intro job hjob
    obtain rfl : finalize fmt spool closing = job := Option.some.inj hjob
    have hmem : .close closing ∈ pending s := by
      rw [pending, hclose]
      exact List.mem_cons_self
    refine ⟨spool, closing, rfl, (hends.pending closing hmem).step hstep, fun herrors => ?_⟩
    have hrun := hcaptured.writer spool hwriter herrors
    refine ⟨appendAll_consistent fmt (consistent_fresh descriptor) hrun, fun direction => ?_⟩
    have hraw : spool.raw.get direction = payloads done direction := by
      rw [appendAll_raw fmt hrun]
      cases direction <;> rfl
    rw [hraw]
    refine List.IsPrefix.trans ?_ (hcaptured.read direction)
    rw [recorded, payloads_append]
    exact List.prefix_append _ _
  | handle event fault =>
    intro job hjob
    refine hkeep job ?_
    unfold State.handled at hjob
    split at hjob <;> exact hjob
  | _ => exact hkeep

/-! ## Every reachable state -/

structure Invariant (fmt : Codec) (descriptor : SessionDescriptor) (s : State) : Prop where
  moved : ∀ direction, Moved (s.sides.get direction)
  counted : Counted s
  ends : Ends s
  captured : ∃ done, Captured fmt descriptor s done
  published : PublishedSoundly fmt s

theorem Invariant.step (hs : Invariant fmt descriptor s)
    (h : Step fmt queueMaxEvents descriptor s t) : Invariant fmt descriptor t := by
  obtain ⟨done, hcaptured⟩ := hs.captured
  exact {
    moved := step_moved h hs.moved
    counted := step_counted h hs.counted
    ends := step_ends h hs.ends
    captured := ⟨_, step_captured h hcaptured⟩
    published := step_published h hcaptured hs.ends hs.published }

theorem captured_opened (policy : StorageFailurePolicy) :
    Captured fmt descriptor (.opened policy) [] where
  read _ := List.nil_prefix
  whole _ direction _ := by cases direction <;> rfl
  managed _ := rfl
  head := List.not_mem_nil
  fresh _ := rfl
  writer _ h := nomatch h

theorem captured_disabled (policy : StorageFailurePolicy) (error : String) :
    Captured fmt descriptor (.disabled policy error) [] where
  read _ := List.nil_prefix
  whole h := nomatch h
  managed h := nomatch h
  head := List.not_mem_nil
  fresh _ := rfl
  writer _ h := nomatch h

theorem invariant_opened (policy : StorageFailurePolicy) :
    Invariant fmt descriptor (.opened policy) where
  moved direction := by cases direction <;> rfl
  counted direction := by cases direction <;> rfl
  ends := {
    leaving := fun _ h => nomatch h
    tail := fun _ h => nomatch h
    created := fun _ h => nomatch h
    closing := fun _ h => nomatch h
    pending := fun _ h => by cases List.mem_singleton.mp h }
  captured := ⟨[], captured_opened policy⟩
  published _ h := nomatch h

theorem invariant_disabled (policy : StorageFailurePolicy) (error : String) :
    Invariant fmt descriptor (.disabled policy error) where
  moved direction := by cases direction <;> rfl
  counted direction := by cases direction <;> rfl
  ends := {
    leaving := fun _ h => nomatch h
    tail := fun _ h => nomatch h
    created := fun _ h => nomatch h
    closing := fun _ h => nomatch h
    pending := fun _ h => absurd h List.not_mem_nil }
  captured := ⟨[], captured_disabled policy error⟩
  published _ h := nomatch h

theorem invariant_of_reachable (h : Reachable fmt queueMaxEvents descriptor s) :
    Invariant fmt descriptor s := by
  induction h with
  | opened policy => exact invariant_opened policy
  | disabled policy error => exact invariant_disabled policy error
  | step _ hstep ih => exact ih.step hstep

/-- The status a manifest states. -/
def statusOf (fmt : Codec) (manifest : Bytes) : Option Json := do
  let document ← fmt.jsonLoads manifest
  document.get? "status"

theorem statusOf_finalize (spool : SessionSpool) (closing : Closing) :
    statusOf fmt (finalize fmt spool closing).manifest = some (.str (spool.status closing)) := by
  have hstatus : (spool.manifest fmt closing).sortKeys.get? "status" =
      some (.str (spool.status closing)) := by
    rw [Json.get?_sortKeys manifest_distinct]
    simp [SessionSpool.manifest, Json.get?, List.lookup_cons, Json.sortKeys]
  rw [statusOf, jsonLoads_manifest, Option.bind_eq_bind, Option.bind_some, hstatus]

/-- A job that is published complete holds every byte that was read, in each
direction; every chunk was forwarded, and both directions came to their end. -/
theorem complete_is_sound (h : Reachable fmt queueMaxEvents descriptor s) {job : JobDirectory}
    (hjob : s.published = some job)
    (hcomplete : statusOf fmt job.manifest = some (.str "COMPLETE")) (direction : Direction) :
    job.raw.get direction = (s.sides.get direction).received.flatten ∧
      (s.sides.get direction).delivered = (s.sides.get direction).received ∧
      (s.sides.get direction).ended = true := by
  have hs := invariant_of_reachable h
  obtain ⟨spool, closing, rfl, hvouched, hraw⟩ := hs.published job hjob
  have hstatus : spool.status closing = "COMPLETE" := by
    rw [statusOf_finalize] at hcomplete
    exact Json.str.inj (Option.some.inj hcomplete)
  have htrue : spool.complete closing = true := by
    by_contra hfalse
    rw [SessionSpool.status, if_neg hfalse] at hstatus
    exact absurd hstatus (by decide)
  simp only [SessionSpool.complete, Bool.and_eq_true, SessionSpool.byteComplete, beq_iff_eq,
    SessionSpool.allErrors, List.isEmpty_iff, List.append_eq_nil_iff] at htrue
  obtain ⟨⟨⟨⟨htransport, hbytes⟩, -⟩, ⟨hspool, -⟩, -⟩, -⟩ := htrue
  obtain ⟨hsettled, hobserved⟩ := hvouched htransport
  obtain ⟨hconsistent, hsound⟩ := hraw hspool
  have hmoved := hs.moved direction
  rw [Moved, show (s.sides.get direction).pump = .returned from hsettled direction] at hmoved
  refine ⟨(hsound direction).eq_of_length ?_, hmoved.1, hmoved.2⟩
  calc (spool.raw.get direction).length = spool.capturedBytes.get direction :=
        hconsistent.capturedBytes direction
    _ = s.counters.observedBytes.get direction := by rw [← hbytes, hobserved]
    _ = (s.sides.get direction).received.flatten.length := hs.counted direction

/-! ## A session -/

def sampleDescriptor : SessionDescriptor where
  sessionId := "6f1d3a52-8c4e-4b7a-9d21-0a5b6c7d8e9f"
  jobId := "0b9c8d7e-6f5a-4e3d-8c2b-1a0f9e8d7c6b"
  deviceId := "cassa1"
  deviceName := "Cassa 1"
  deviceType := "rch"
  parser := "rch"
  clientEndpoint := ("192.168.1.20", 50123)
  listenerEndpoint := ("192.168.1.10", 9100)
  targetEndpoint := ("192.168.1.50", 9100)
  connectedAtUtc := "2026-07-01T10:00:00.000000Z"
  connectedMonotonicNs := 1000

/-- Two bytes for the device, and both ends of stream. -/
theorem sample_complete : ∃ s job, Reachable runtime 4 sampleDescriptor s ∧
    s.published = some job ∧ statusOf runtime job.manifest = some (.str "COMPLETE") ∧
    (s.sides.get .clientToDevice).received = [[0x1b, 0x40]] := by
  have h : Reachable runtime 4 sampleDescriptor (.opened .abort) := .opened .abort
  have h := h.step (.take _ .open [] rfl rfl rfl)
  have h := h.step (.openSpool _ rfl)
  have h := h.step (.read _ .clientToDevice [0x1b, 0x40] "2026-07-01T10:00:01.000000Z" 2000 rfl
    (List.cons_ne_nil _ _))
  have h := h.step (.forward _ .clientToDevice _ none "2026-07-01T10:00:01.000500Z" 0 rfl)
  have h := h.step (.readEof _ .clientToDevice "2026-07-01T10:00:01.000000Z" 2100 rfl)
  have h := h.step (.forward _ .clientToDevice _ none "2026-07-01T10:00:01.000500Z" 0 rfl)
  have h := h.step (.firstWait _ .clientToDevice rfl (Or.inr (Or.inr ⟨.clientToDevice, rfl⟩)))
  have h := h.step (.readEof _ .deviceToClient "2026-07-01T10:00:01.000000Z" 2200 rfl)
  have h := h.step (.forward _ .deviceToClient _ none "2026-07-01T10:00:01.000500Z" 0 rfl)
  have h := h.step (.tailWait _ .deviceToClient rfl (Or.inr (Or.inr rfl)))
  have h := h.step (.close _ _ "2026-07-01T10:00:02.000000Z" 3000 rfl)
  have h := h.step (.finalize _ _ rfl)
  have h := h.step (.take _ _ _ rfl rfl rfl)
  have h := h.step (.handle _ _ none rfl)
  have h := h.step (.putClose _ _ 0 rfl rfl)
  have h := h.step (.take _ _ _ rfl rfl rfl)
  have h := h.step (.handle _ _ none rfl)
  have h := h.step (.take _ _ _ rfl rfl rfl)
  have h := h.step (.handle _ _ none rfl)
  have h := h.step (.take _ _ _ rfl rfl rfl)
  have h := h.step (.publish _ _ _ rfl rfl)
  refine ⟨_, _, h, rfl, ?_, rfl⟩
  rw [statusOf_finalize]
  rfl

theorem complete_is_sound_sample : ∃ (s : State) (job : JobDirectory), s.published = some job ∧
    statusOf runtime job.manifest = some (.str "COMPLETE") ∧
    ∀ direction, job.raw.get direction = (s.sides.get direction).received.flatten ∧
      (s.sides.get direction).delivered = (s.sides.get direction).received ∧
      (s.sides.get direction).ended = true := by
  obtain ⟨s, job, h, hjob, hstatus, -⟩ := sample_complete
  exact ⟨s, job, hjob, hstatus, fun direction => complete_is_sound h hjob hstatus direction⟩

end RetailPrintGuard.Proxy.RelayRuns
