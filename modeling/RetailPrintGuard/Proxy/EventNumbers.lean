import Mathlib.Data.List.Perm.Subperm
import RetailPrintGuard.Proxy.RelayRuns

/-! # The numbers of the events

A pump numbers what it reads before it forwards it, and records it after. The
events that are recorded follow one another in the order that `append` checks,
and no two of them carry one observed number. -/
namespace RetailPrintGuard.Proxy.EventNumbers
open RetailPrintGuard.Library RetailPrintGuard.Common.Formats
open RetailPrintGuard.Proxy.Spool RetailPrintGuard.Proxy.SpoolRuns RetailPrintGuard.Proxy.Relay
open RetailPrintGuard.Proxy.RelayRuns
open RetailPrintGuard.Common.Runtime (runtime)

/-! ## Events in sequence -/

/-- How many events a direction has. -/
def countOf (events : List CaptureEvent) (direction : Direction) : Nat :=
  (events.filter fun event => event.direction = direction).length

/-- An event that is in its place after some events. -/
structure InPlace (before : List CaptureEvent) (event : CaptureEvent) : Prop where
  sequence : event.sequence = before.length
  directionSequence : event.directionSequence = countOf before event.direction
  offset : event.offset = (payloads before event.direction).length
  kind : event.kind = "data" ∨ event.kind = "eof"
  empty : event.kind = "eof" → event.payload = []

/-- Every event is in its place after the ones before it. -/
def Sequential : List CaptureEvent → List CaptureEvent → Prop
  | _, [] => True
  | before, event :: rest => InPlace before event ∧ Sequential (before ++ [event]) rest

theorem sequential_append {before events more : List CaptureEvent} :
    Sequential before (events ++ more) ↔
      Sequential before events ∧ Sequential (before ++ events) more := by
  induction events generalizing before with
  | nil => rw [List.nil_append, List.append_nil]; exact (and_iff_right trivial).symm
  | cons event events ih =>
    rw [List.cons_append, Sequential, ih, Sequential, and_assoc, List.append_assoc]
    rfl

theorem countOf_append (events more : List CaptureEvent) (direction : Direction) :
    countOf (events ++ more) direction = countOf events direction + countOf more direction := by
  rw [countOf, List.filter_append, List.length_append]
  rfl

theorem countOf_singleton (event : CaptureEvent) (direction : Direction) :
    countOf [event] direction = if event.direction = direction then 1 else 0 := by
  rw [countOf, List.filter_singleton]
  split <;> simp_all

section
variable {fmt : Codec} {queueMaxEvents : Nat} {descriptor : SessionDescriptor} {s t : State}

theorem appendAll_directionSequence {spool spool' : SessionSpool} {events : List CaptureEvent}
    (h : appendAll fmt spool events = some spool') (direction : Direction) :
    spool'.nextDirectionSequence.get direction =
      spool.nextDirectionSequence.get direction + countOf events direction := by
  induction events generalizing spool with
  | nil =>
    cases h
    rfl
  | cons event events ih =>
    obtain ⟨-, hrest⟩ := (appendAll_cons fmt).mp h
    have hcount : countOf (event :: events) direction =
        countOf [event] direction + countOf events direction :=
      countOf_append [event] events direction
    rw [ih hrest, hcount, countOf_singleton]
    show (spool.nextDirectionSequence.set event.direction
      (spool.nextDirectionSequence.get event.direction + 1)).get direction + _ = _
    rw [ByDirection.get_set]
    by_cases hdirection : direction = event.direction
    · rw [if_pos hdirection, if_pos hdirection.symm, ← hdirection, Nat.add_assoc]
    · rw [if_neg hdirection, if_neg fun heq => hdirection heq.symm, Nat.zero_add]

/-- A directory accepts the event that is in its place. -/
theorem InPlace.accepted {spool : SessionSpool} {events : List CaptureEvent} {event : CaptureEvent}
    (h : InPlace events event) (hspool : appendAll fmt { descriptor } events = some spool) :
    Accepted spool event := by
  have hconsistent := appendAll_consistent fmt (consistent_fresh descriptor) hspool
  have hzero : ∀ direction, (ByDirection.const 0 : ByDirection Nat).get direction = 0 :=
    fun direction => ByDirection.get_const 0 direction
  refine ⟨hconsistent.opened, ?_, ?_, ?_, h.kind, h.empty⟩
  · rw [h.sequence, appendAll_nextSequence fmt hspool]
    exact (Nat.zero_add _).symm
  · rw [h.directionSequence, appendAll_directionSequence hspool, hzero, Nat.zero_add]
  · rw [h.offset, ← hconsistent.capturedBytes, appendAll_raw fmt hspool, ByDirection.get_const,
      List.nil_append]

/-! ## The numbers in use -/

/-- The observed number a pump holds. -/
def held : Pump → List Nat
  | .forwarding frame => [frame.position.observedSequence]
  | _ => []

/-- The observed numbers of the recorded events and of those in the hands of the
pumps. -/
def numbers (s : State) (events : List CaptureEvent) : List Nat :=
  events.map CaptureEvent.observedSequence ++
    (held (s.pump .clientToDevice) ++ held (s.pump .deviceToClient))

theorem numbers_perm (events : List CaptureEvent) (direction : Direction) :
    (numbers s events).Perm (events.map CaptureEvent.observedSequence ++
      (held (s.pump direction) ++ held (s.pump (opposite direction)))) := by
  cases direction with
  | clientToDevice => exact .refl _
  | deviceToClient => exact List.perm_append_comm.append_left _

/-- What a pump numbered agrees with what was recorded of its direction. -/
structure Position.Follows (position : Position) (events : List CaptureEvent)
    (direction : Direction) : Prop where
  directionSequence : position.directionSequence = countOf events direction
  offset : position.offset = (payloads events direction).length

structure Numbered (s : State) (events : List CaptureEvent) : Prop where
  sequential : Sequential [] events
  next : s.session.accepting = true → s.session.sequence = events.length
  reading : s.session.accepting = true → ∀ direction, s.pump direction = .reading →
    Position.Follows (s.counters.position direction) events direction
  forwarding : s.session.accepting = true → ∀ direction frame,
    s.pump direction = .forwarding frame →
    Position.Follows frame.position events direction ∧
      s.counters.directionEvents.get direction = frame.position.directionSequence + 1 ∧
      s.counters.observedBytes.get direction = frame.position.offset + frame.payload.length
  distinct : (numbers s events).Nodup
  below : ∀ n ∈ numbers s events, n < s.counters.observedEvents

/-- A state with the same pumps, counters and events. -/
theorem Numbered.same {events : List CaptureEvent} (h : Numbered s events)
    (hsides : t.sides = s.sides) (hcounters : t.counters = s.counters)
    (hsession : t.session.accepting = true → t.session = s.session) : Numbered t events := by
  have hpump : ∀ direction, t.pump direction = s.pump direction := fun direction => by
    rw [State.pump, hsides]
    rfl
  have hnumbers : numbers t events = numbers s events := by rw [numbers, hpump, hpump]; rfl
  have hkept : t.session.accepting = true → s.session.accepting = true :=
    fun haccepting => hsession haccepting ▸ haccepting
  exact {
    sequential := h.sequential
    next := fun haccepting => by
      rw [hsession haccepting]
      exact h.next (hkept haccepting)
    reading := fun haccepting direction hreading => by
      rw [hpump] at hreading
      rw [hcounters]
      exact h.reading (hkept haccepting) direction hreading
    forwarding := fun haccepting direction frame hforwarding => by
      rw [hpump] at hforwarding
      rw [hcounters]
      exact h.forwarding (hkept haccepting) direction frame hforwarding
    distinct := hnumbers ▸ h.distinct
    below := by
      rw [hnumbers, hcounters]
      exact h.below }

/-! ## Steps of a pump -/

theorem pump_set (direction other : Direction) (side : Side) (counters : RelayCounters) :
    State.pump { s with sides := s.sides.set direction side, counters } other =
      if other = direction then side.pump else s.pump other := by
  show ((s.sides.set direction side).get other).pump = _
  rw [ByDirection.get_set]
  split <;> rfl

theorem pump_forwarded {full : Bool} {direction : Direction} {frame : Frame}
    {forwardError : Option String} {forwardedAtUtc : String} (other : Direction) :
    (s.forwarded full direction frame forwardError forwardedAtUtc).pump other =
      if other = direction then
        Pump.next (s.session.record full direction frame forwardError forwardedAtUtc).2 frame
          forwardError
          (s.session.record full direction frame forwardError forwardedAtUtc).1.isSome
      else s.pump other := pump_set direction other _ s.counters

theorem opposite_ne (direction : Direction) : opposite direction ≠ direction := by
  cases direction <;> decide

/-- The numbers when one pump moves. -/
theorem numbers_moved {events : List CaptureEvent} {direction : Direction}
    (hother : t.pump (opposite direction) = s.pump (opposite direction)) {free : List Nat}
    (hfree : free = held (s.pump direction)) :
    (numbers s events).Perm (free ++ (events.map CaptureEvent.observedSequence ++
      held (s.pump (opposite direction)))) ∧
    (numbers t events).Perm (held (t.pump direction) ++ (events.map CaptureEvent.observedSequence ++
      held (s.pump (opposite direction)))) := by
  have hmove : ∀ a b c : List Nat, (a ++ (b ++ c)).Perm (b ++ (a ++ c)) := by
    intro a b c
    rw [← List.append_assoc, ← List.append_assoc]
    exact List.perm_append_comm.append_right c
  subst hfree
  refine ⟨(numbers_perm events direction).trans (hmove _ _ _), ?_⟩
  rw [← hother]
  exact (numbers_perm events direction).trans (hmove _ _ _)

/-- A pump takes the next number. -/
theorem Numbered.numbered {events : List CaptureEvent} (h : Numbered s events)
    {direction : Direction} (hreading : s.pump direction = .reading)
    (hpump : ∀ other, t.pump other = if other = direction then t.pump direction else s.pump other)
    (hheld : held (t.pump direction) = [s.counters.observedEvents])
    (hcounter : t.counters.observedEvents = s.counters.observedEvents + 1) :
    (numbers t events).Nodup ∧ (∀ n ∈ numbers t events, n < t.counters.observedEvents) ∧
      (numbers t events).length = (numbers s events).length + 1 := by
  have hother : t.pump (opposite direction) = s.pump (opposite direction) := by
    rw [hpump, if_neg (opposite_ne direction)]
  obtain ⟨hbefore, hafter⟩ := @numbers_moved s t events direction hother [] (by rw [hreading]; rfl)
  rw [hheld] at hafter
  have hmoved : (numbers t events).Perm (s.counters.observedEvents :: numbers s events) :=
    hafter.trans (hbefore.symm.cons _)
  refine ⟨hmoved.nodup_iff.mpr (List.nodup_cons.mpr ⟨fun hmem => ?_, h.distinct⟩), ?_,
    hmoved.length_eq⟩
  · exact absurd (h.below _ hmem) (Nat.lt_irrefl _)
  · intro n hn
    rw [hcounter]
    rcases List.mem_cons.mp (hmoved.mem_iff.mp hn) with rfl | hn
    · exact Nat.lt_succ_self _
    · exact Nat.lt_succ_of_lt (h.below n hn)

/-- A pump lets its number go. -/
theorem Numbered.released {events : List CaptureEvent} (h : Numbered s events)
    {direction : Direction}
    (hpump : ∀ other, t.pump other = if other = direction then t.pump direction else s.pump other)
    (hheld : held (t.pump direction) = [])
    (hcounter : t.counters.observedEvents = s.counters.observedEvents) :
    (numbers t events).Nodup ∧ ∀ n ∈ numbers t events, n < t.counters.observedEvents := by
  have hother : t.pump (opposite direction) = s.pump (opposite direction) := by
    rw [hpump, if_neg (opposite_ne direction)]
  obtain ⟨hbefore, hafter⟩ := @numbers_moved s t events direction hother _ rfl
  rw [hheld, List.nil_append] at hafter
  have hdistinct := hbefore.nodup_iff.mp h.distinct
  refine ⟨hafter.nodup_iff.mpr (List.nodup_append.mp hdistinct).2.1, fun n hn => ?_⟩
  rw [hcounter]
  exact h.below n (hbefore.mem_iff.mpr (List.mem_append_right _ (hafter.mem_iff.mp hn)))

/-- A pump read something and numbered it. -/
theorem Numbered.hold {events : List CaptureEvent} (h : Numbered s events) {direction : Direction}
    {side : Side} {counters : RelayCounters} {frame : Frame}
    (hreading : s.pump direction = .reading)
    (hside : side.pump = .forwarding frame)
    (hposition : frame.position = s.counters.position direction)
    (hcounter : counters.observedEvents = s.counters.observedEvents + 1)
    (hevents : ∀ other, counters.directionEvents.get other =
      s.counters.directionEvents.get other + if other = direction then 1 else 0)
    (hbytes : ∀ other, counters.observedBytes.get other =
      s.counters.observedBytes.get other + if other = direction then frame.payload.length else 0) :
    Numbered { s with sides := s.sides.set direction side, counters } events ∧
      (numbers { s with sides := s.sides.set direction side, counters } events).length =
        (numbers s events).length + 1 := by
  have hpump := fun other => @pump_set s direction other side counters
  have hself := hpump direction
  rw [if_pos rfl, hside] at hself
  obtain ⟨hdistinct, hbelow, hlength⟩ := h.numbered (t := { s with
      sides := s.sides.set direction side, counters }) hreading
    (fun other => by rw [hpump, hpump, if_pos rfl]) (by rw [hself, held, hposition]; rfl) hcounter
  refine ⟨⟨h.sequential, h.next, ?_, ?_, hdistinct, hbelow⟩, hlength⟩
  · intro haccepting other hother
    rw [hpump] at hother
    split at hother
    · rw [hside] at hother
      cases hother
    · next hne =>
      have hfollows := h.reading haccepting other hother
      refine ⟨?_, ?_⟩
      · show counters.directionEvents.get other = _
        rw [hevents, if_neg hne]
        exact hfollows.directionSequence
      · show counters.observedBytes.get other = _
        rw [hbytes, if_neg hne]
        exact hfollows.offset
  · intro haccepting other frame' hother
    rw [hpump] at hother
    split at hother
    · next heq =>
      rw [hside] at hother
      obtain rfl := Pump.forwarding.inj hother
      rw [heq, hevents, hbytes, if_pos rfl, if_pos rfl, hposition]
      exact ⟨h.reading haccepting direction hreading, rfl, rfl⟩
    · next hne =>
      rw [hevents, hbytes, if_neg hne, if_neg hne]
      exact h.forwarding haccepting other frame' hother

/-- A pump that stops lets its number go. -/
theorem Numbered.stop {events : List CaptureEvent} (h : Numbered s events) {direction : Direction}
    {pump : Pump} (hdone : pump.done = true) : Numbered (s.setPump direction pump) events := by
  have hpump := fun other =>
    @pump_set s direction other { s.sides.get direction with pump } s.counters
  have hself := hpump direction
  rw [if_pos rfl] at hself
  obtain ⟨hdistinct, hbelow⟩ := h.released (t := s.setPump direction pump)
    (fun other => by rw [State.setPump, hpump, hpump, if_pos rfl])
    (by rw [State.setPump, hself]; cases pump <;> first | rfl | cases hdone) rfl
  refine ⟨h.sequential, h.next, ?_, ?_, hdistinct, hbelow⟩
  · intro haccepting other hother
    rw [State.setPump, hpump] at hother
    split at hother
    · rw [show pump = .reading from hother] at hdone
      cases hdone
    · exact h.reading haccepting other hother
  · intro haccepting other frame hother
    rw [State.setPump, hpump] at hother
    split at hother
    · rw [show pump = .forwarding frame from hother] at hdone
      cases hdone
    · exact h.forwarding haccepting other frame hother

theorem held_next (session : CaptureSession) (frame : Frame) (forwardError : Option String)
    (accepted : Bool) : held (Pump.next session frame forwardError accepted) = [] := by
  unfold Pump.next
  cases forwardError with
  | some error => rfl
  | none =>
    dsimp only
    split
    · rfl
    · split <;> rfl

/-- The event of a frame is in its place. -/
theorem Numbered.inPlace {events : List CaptureEvent} (h : Numbered s events)
    (haccepting : s.session.accepting = true) {direction : Direction} {frame : Frame}
    (hforwarding : s.pump direction = .forwarding frame) (forwardError : Option String)
    (forwardedAtUtc : String) :
    InPlace events (s.session.event direction frame forwardError forwardedAtUtc) := by
  obtain ⟨hfollows, -, -⟩ := h.forwarding haccepting direction frame hforwarding
  refine ⟨h.next haccepting, hfollows.directionSequence, hfollows.offset, ?_, ?_⟩
  · show (if frame.payload = [] then "eof" else "data") = "data" ∨
      (if frame.payload = [] then "eof" else "data") = "eof"
    split
    · exact .inr rfl
    · exact .inl rfl
  · intro heof
    show frame.payload = []
    by_contra hne
    have heof : (if frame.payload = [] then "eof" else "data") = "eof" := heof
    rw [if_neg hne] at heof
    exact absurd heof (by decide)

/-- What follows the events of a direction follows them after an event of the other. -/
theorem Position.Follows.other {position : Position} {events : List CaptureEvent}
    {direction : Direction} (h : Position.Follows position events direction) {event : CaptureEvent}
    (hne : direction ≠ event.direction) :
    Position.Follows position (events ++ [event]) direction := by
  refine ⟨?_, ?_⟩
  · rw [countOf_append, countOf_singleton, if_neg fun heq => hne heq.symm]
    exact h.directionSequence
  · rw [payloads_append, payloads_singleton, if_neg hne, List.append_nil]
    exact h.offset

/-- The next position of a direction follows the event that was recorded. -/
theorem Position.Follows.recorded {position next : Position} {events : List CaptureEvent}
    {direction : Direction} (h : Position.Follows position events direction) {event : CaptureEvent}
    {payload : Bytes} (hdirection : event.direction = direction)
    (hpayload : event.payload = payload)
    (hnext : next.directionSequence = position.directionSequence + 1)
    (hoffset : next.offset = position.offset + payload.length) :
    Position.Follows next (events ++ [event]) direction := by
  refine ⟨?_, ?_⟩
  · rw [hnext, h.directionSequence, countOf_append, countOf_singleton, if_pos hdirection]
  · rw [hoffset, h.offset, payloads_append, payloads_singleton, if_pos hdirection.symm, hpayload,
      List.length_append]

/-- The number of a frame passes from the pump to the event. -/
theorem numbers_recorded {events : List CaptureEvent} {direction : Direction} {frame : Frame}
    {event : CaptureEvent} {next : Pump} (hforwarding : s.pump direction = .forwarding frame)
    (hpump : ∀ other, t.pump other = if other = direction then next else s.pump other)
    (hnext : held next = []) (hevent : event.observedSequence = frame.position.observedSequence) :
    (numbers t (events ++ [event])).Perm (numbers s events) := by
  have hself := hpump direction
  rw [if_pos rfl] at hself
  have hother := hpump (opposite direction)
  rw [if_neg (opposite_ne direction)] at hother
  refine (numbers_perm (events ++ [event]) direction).trans
    (List.Perm.trans ?_ (numbers_perm events direction).symm)
  rw [hself, hnext, hother, hforwarding, List.map_append, List.append_assoc, held, ← hevent]
  exact .refl _

/-- A frame is recorded, or the session accepts nothing more. -/
theorem Numbered.forwarded {events : List CaptureEvent} (h : Numbered s events)
    (hmanaged : s.session.accepting = true → s.session.manager = true) {full : Bool}
    {direction : Direction} {frame : Frame} {forwardError : Option String} {forwardedAtUtc : String}
    (hforwarding : s.pump direction = .forwarding frame) :
    Numbered (s.forwarded full direction frame forwardError forwardedAtUtc)
      (events ++ (s.session.record full direction frame forwardError forwardedAtUtc).1.toList) := by
  have hpump := @pump_forwarded s full direction frame forwardError forwardedAtUtc
  have hself := hpump direction
  rw [if_pos rfl] at hself
  have hreleased := h.released (t := s.forwarded full direction frame forwardError forwardedAtUtc)
    (fun other => by rw [hpump, hpump, if_pos rfl]) (by rw [hself, held_next]) rfl
  rcases record_cases s.session full direction frame forwardError forwardedAtUtc hmanaged with
    ⟨hrecord, haccepting⟩ | ⟨hnone, hclosed⟩
  · obtain ⟨hfollows, hevents, hbytes⟩ := h.forwarding haccepting direction frame hforwarding
    have hinPlace := h.inPlace haccepting hforwarding forwardError forwardedAtUtc
    have hmoved := @numbers_recorded s _ events direction frame
      (s.session.event direction frame forwardError forwardedAtUtc) _ hforwarding hpump
      (held_next _ _ _ _) rfl
    rw [hrecord, Option.toList_some]
    refine ⟨sequential_append.mpr ⟨h.sequential, hinPlace, trivial⟩, fun _ => ?_, ?_, ?_,
      hmoved.nodup_iff.mpr h.distinct, fun n hn => h.below n (hmoved.mem_iff.mp hn)⟩
    · show (s.session.record full direction frame forwardError forwardedAtUtc).2.sequence = _
      rw [hrecord, List.length_append]
      exact congrArg (· + 1) (h.next haccepting)
    · intro _ other hreading
      rw [hpump] at hreading
      split at hreading
      · next heq =>
        rw [heq]
        exact hfollows.recorded rfl rfl hevents hbytes
      · next hne => exact (h.reading haccepting other hreading).other hne
    · intro _ other frame' hother
      rw [hpump] at hother
      split at hother
      · exact absurd (congrArg held hother) (by rw [held_next]; exact (List.cons_ne_nil _ _).symm)
      · next hne =>
        obtain ⟨hfollows', hcounts⟩ := h.forwarding haccepting other frame' hother
        exact ⟨hfollows'.other hne, hcounts⟩
  · rw [hnone, Option.toList_none, List.append_nil]
    have haccepting : (s.forwarded full direction frame forwardError
        forwardedAtUtc).session.accepting ≠ true := by
      show (s.session.record full direction frame forwardError forwardedAtUtc).2.accepting ≠ true
      rw [hclosed]
      exact Bool.false_ne_true
    exact ⟨h.sequential, fun hsome => absurd hsome haccepting, fun hsome => absurd hsome haccepting,
      fun hsome => absurd hsome haccepting, hreleased.1, hreleased.2⟩

/-! ## Every step -/

/-- The events a step puts in the queue. -/
def recordedEvents (s t : State) (done : List CaptureEvent) : List CaptureEvent :=
  doneAfter s t done ++ eventsOf (pending t)

theorem recordedEvents_same {done : List CaptureEvent} (hhand : t.inHand = s.inHand)
    (hqueue : eventsOf t.queue = eventsOf s.queue) :
    recordedEvents s t done = done ++ eventsOf (pending s) := by
  rw [recordedEvents, doneAfter_same hhand, pending, pending, hhand, eventsOf_append, hqueue,
    eventsOf_append]

theorem recordedEvents_handled {done : List CaptureEvent} {command : Command}
    (hs : s.inHand = some command) (ht : t.inHand = none) (hqueue : t.queue = s.queue) :
    recordedEvents s t done = done ++ eventsOf (pending s) := by
  rw [recordedEvents, doneAfter_handled hs ht, pending, pending, hs, ht, hqueue, List.append_assoc,
    ← eventsOf_append]
  rfl

theorem handled_queue (event : CaptureEvent) (fault : Option WriteFault) :
    (s.handled fmt event fault).queue = s.queue := by
  unfold State.handled
  split <;> rfl

theorem handled_session (event : CaptureEvent) (fault : Option WriteFault) :
    (s.handled fmt event fault).session = s.session := by
  unfold State.handled
  split <;> rfl

theorem recordedEvents_forwarded {done : List CaptureEvent} {full : Bool} {direction : Direction}
    {frame : Frame} {forwardError : Option String} {forwardedAtUtc : String} :
    recordedEvents s (s.forwarded full direction frame forwardError forwardedAtUtc) done =
      done ++ eventsOf (pending s) ++
        (s.session.record full direction frame forwardError forwardedAtUtc).1.toList := by
  have hdone : doneAfter s (s.forwarded full direction frame forwardError forwardedAtUtc) done =
      done := doneAfter_same rfl
  rw [recordedEvents, hdone, List.append_assoc]
  congr 1
  show eventsOf (s.inHand.toList ++ (s.queue ++ ((s.session.record full direction frame forwardError
    forwardedAtUtc).1.map Command.event).toList)) = _
  rw [← List.append_assoc, eventsOf_append]
  congr 1
  cases (s.session.record full direction frame forwardError forwardedAtUtc).1 <;> rfl

theorem get_set_add (counts : ByDirection Nat) (direction : Direction) (n : Nat)
    (other : Direction) :
    (counts.set direction (counts.get direction + n)).get other =
      counts.get other + if other = direction then n else 0 := by
  rw [ByDirection.get_set]
  split
  · next heq => rw [heq]
  · rfl

/-- A step that records no event. -/
theorem Numbered.kept {done : List CaptureEvent} (hhand : t.inHand = s.inHand)
    (hqueue : eventsOf t.queue = eventsOf s.queue) (h : Numbered t (done ++ eventsOf (pending s))) :
    Numbered t (recordedEvents s t done) := by
  rw [recordedEvents_same hhand hqueue]
  exact h

/-- A step in which the thread is done with a command. -/
theorem Numbered.taken {done : List CaptureEvent} {command : Command}
    (hs : s.inHand = some command) (ht : t.inHand = none) (hqueue : t.queue = s.queue)
    (h : Numbered t (done ++ eventsOf (pending s))) : Numbered t (recordedEvents s t done) := by
  rw [recordedEvents_handled hs ht hqueue]
  exact h

theorem step_numbered {done : List CaptureEvent} (h : Step fmt queueMaxEvents descriptor s t)
    (hcaptured : Captured fmt descriptor s done) (hs : Numbered s (done ++ eventsOf (pending s))) :
    Numbered t (recordedEvents s t done) := by
  cases h with
  | read direction payload capturedAtUtc capturedMonotonicNs hpump hpayload =>
    refine Numbered.kept rfl rfl ?_
    exact (hs.hold hpump rfl rfl rfl (get_set_add _ _ _) (get_set_add _ _ _)).1
  | readEof direction capturedAtUtc capturedMonotonicNs hpump =>
    refine Numbered.kept rfl rfl ?_
    exact (hs.hold hpump rfl rfl rfl (get_set_add _ _ _) (fun other => by
      show s.counters.observedBytes.get other =
        s.counters.observedBytes.get other + if other = direction then 0 else 0
      rw [ite_self, Nat.add_zero])).1
  | forward direction frame forwardError forwardedAtUtc others hpump =>
    rw [recordedEvents_forwarded]
    exact hs.forwarded hcaptured.managed hpump
  | pumpRaises direction error hpump =>
    refine Numbered.kept rfl rfl ?_
    exact hs.stop rfl
  | pumpCancelled direction hpump =>
    refine Numbered.kept rfl rfl ?_
    exact hs.stop rfl
  | take command rest hqueue hfree halive =>
    have hevents : recordedEvents s { s with inHand := some command, queue := rest } done =
        done ++ eventsOf (pending s) := by
      rw [recordedEvents, doneAfter, if_neg (Option.some_ne_none command), pending, pending, hfree,
        hqueue]
      rfl
    rw [hevents]
    exact hs.same rfl rfl fun _ => rfl
  | handle event fault hevent =>
    refine Numbered.taken hevent (handled_inHand event fault) (handled_queue event fault) ?_
    exact hs.same (handled_sides event fault) (handled_counters event fault)
      fun _ => handled_session event fault
  | openSpool hopen =>
    refine Numbered.taken hopen rfl rfl ?_
    exact hs.same rfl rfl fun _ => rfl
  | openFails error hopen =>
    refine Numbered.taken hopen rfl rfl ?_
    exact hs.same rfl rfl fun _ => rfl
  | publish spool closing hclose hwriter =>
    refine Numbered.taken hclose rfl rfl ?_
    exact hs.same rfl rfl fun _ => rfl
  | publishFails closing hclose =>
    refine Numbered.taken hclose rfl rfl ?_
    exact hs.same rfl rfl fun _ => rfl
  | putClose closing others hclosing hroom =>
    refine Numbered.kept rfl (by rw [eventsOf_append]; exact List.append_nil _) ?_
    exact hs.same rfl rfl fun _ => rfl
  | notify error rest hnotices =>
    refine Numbered.kept rfl rfl ?_
    refine hs.same rfl rfl fun haccepting => ?_
    cases haccepting
  | _ =>
    refine Numbered.kept rfl rfl ?_
    exact hs.same rfl rfl fun _ => rfl

/-! ## Numbers that are lost -/

/-- A frame that was forwarded is not recorded. -/
def Dropped (s t : State) : Prop := ∃ full direction frame forwardError forwardedAtUtc,
  s.pump direction = .forwarding frame ∧
    t = s.forwarded full direction frame forwardError forwardedAtUtc ∧
    (s.session.record full direction frame forwardError forwardedAtUtc).1 = none

/-- A pump stops with a frame in its hands. -/
def Interrupted (s t : State) : Prop := ∃ direction frame pump,
  s.pump direction = .forwarding frame ∧ pump.done = true ∧ t = s.setPump direction pump

/-- Every number that was given is in use. -/
def Kept (s : State) (events : List CaptureEvent) : Prop :=
  (numbers s events).length = s.counters.observedEvents

theorem Kept.same {events : List CaptureEvent} (h : Kept s events) (hsides : t.sides = s.sides)
    (hcounters : t.counters = s.counters) : Kept t events := by
  have hpump : ∀ direction, t.pump direction = s.pump direction := fun direction => by
    rw [State.pump, hsides]
    rfl
  rw [Kept, numbers, hpump, hpump, hcounters]
  exact h

/-- A pump that stops with nothing in its hands. -/
theorem Kept.stop {events : List CaptureEvent} (h : Kept s events) {direction : Direction}
    {pump : Pump} (hdone : pump.done = true)
    (hfree : ¬ Interrupted s (s.setPump direction pump)) :
    Kept (s.setPump direction pump) events := by
  have hreading : held (s.pump direction) = [] := by
    cases hpump : s.pump direction with
    | forwarding frame => exact absurd ⟨direction, frame, pump, hpump, hdone, rfl⟩ hfree
    | _ => rfl
  have hpump := fun other =>
    @pump_set s direction other { s.sides.get direction with pump } s.counters
  have hself : held ((s.setPump direction pump).pump direction) = [] := by
    rw [State.setPump, hpump, if_pos rfl]
    cases pump <;> first | rfl | cases hdone
  have hother : (s.setPump direction pump).pump (opposite direction) =
      s.pump (opposite direction) := by
    rw [State.setPump, hpump, if_neg (opposite_ne direction)]
  obtain ⟨hbefore, hafter⟩ := @numbers_moved s _ events direction hother _ rfl
  rw [hself] at hafter
  rw [hreading] at hbefore
  rw [Kept, hafter.length_eq, ← hbefore.length_eq]
  exact h

/-- A frame that is recorded. -/
theorem Kept.forwarded {events : List CaptureEvent} (h : Kept s events) {full : Bool}
    {direction : Direction} {frame : Frame} {forwardError : Option String} {forwardedAtUtc : String}
    (hforwarding : s.pump direction = .forwarding frame)
    (hrecorded : (s.session.record full direction frame forwardError forwardedAtUtc).1 ≠ none) :
    Kept (s.forwarded full direction frame forwardError forwardedAtUtc)
      (events ++ (s.session.record full direction frame forwardError forwardedAtUtc).1.toList) := by
  have hpump := @pump_forwarded s full direction frame forwardError forwardedAtUtc
  have hevent : (s.session.record full direction frame forwardError forwardedAtUtc).1 =
      some (s.session.event direction frame forwardError forwardedAtUtc) := by
    unfold CaptureSession.record at hrecorded ⊢
    split
    · next hclosed => exact absurd (by rw [if_pos hclosed]) hrecorded
    · next hclosed =>
      split
      · next hfull => exact absurd (by rw [if_neg hclosed, if_pos hfull]) hrecorded
      · rfl
  have hmoved := @numbers_recorded s _ events direction frame
    (s.session.event direction frame forwardError forwardedAtUtc) _ hforwarding hpump
    (held_next _ _ _ _) rfl
  rw [Kept, hevent, Option.toList_some, hmoved.length_eq]
  exact h

theorem step_kept {done : List CaptureEvent} (h : Step fmt queueMaxEvents descriptor s t)
    (hnumbered : Numbered s (done ++ eventsOf (pending s))) (hdropped : ¬ Dropped s t)
    (hinterrupted : ¬ Interrupted s t) (hs : Kept s (done ++ eventsOf (pending s))) :
    Kept t (recordedEvents s t done) := by
  have hkept : t.inHand = s.inHand → eventsOf t.queue = eventsOf s.queue →
      Kept t (done ++ eventsOf (pending s)) → Kept t (recordedEvents s t done) := by
    intro hhand hqueue ht
    rw [recordedEvents_same hhand hqueue]
    exact ht
  have htaken : ∀ command, s.inHand = some command → t.inHand = none → t.queue = s.queue →
      t.sides = s.sides → t.counters = s.counters → Kept t (recordedEvents s t done) := by
    intro command hhand hfree hqueue hsides hcounters
    rw [recordedEvents_handled hhand hfree hqueue]
    exact hs.same hsides hcounters
  cases h with
  | read direction payload capturedAtUtc capturedMonotonicNs hpump hpayload =>
    refine hkept rfl rfl ?_
    rw [Kept]
    refine (hnumbered.hold hpump rfl rfl rfl (get_set_add _ _ _) (get_set_add _ _ _)).2.trans ?_
    exact congrArg (· + 1) hs
  | readEof direction capturedAtUtc capturedMonotonicNs hpump =>
    refine hkept rfl rfl ?_
    rw [Kept]
    refine (hnumbered.hold hpump rfl rfl rfl (get_set_add _ _ _) (fun other => by
      show s.counters.observedBytes.get other =
        s.counters.observedBytes.get other + if other = direction then 0 else 0
      rw [ite_self, Nat.add_zero])).2.trans ?_
    exact congrArg (· + 1) hs
  | forward direction frame forwardError forwardedAtUtc others hpump =>
    rw [recordedEvents_forwarded]
    exact hs.forwarded hpump fun hnone => hdropped ⟨_, _, _, _, _, hpump, rfl, hnone⟩
  | pumpRaises direction error hpump => exact hkept rfl rfl (hs.stop rfl hinterrupted)
  | pumpCancelled direction hpump => exact hkept rfl rfl (hs.stop rfl hinterrupted)
  | take command rest hqueue hfree halive =>
    have hevents : recordedEvents s { s with inHand := some command, queue := rest } done =
        done ++ eventsOf (pending s) := by
      rw [recordedEvents, doneAfter, if_neg (Option.some_ne_none command), pending, pending, hfree,
        hqueue]
      rfl
    rw [hevents]
    exact hs.same rfl rfl
  | handle event fault hevent =>
    exact htaken _ hevent (handled_inHand event fault) (handled_queue event fault)
      (handled_sides event fault) (handled_counters event fault)
  | openSpool hopen => exact htaken _ hopen rfl rfl rfl rfl
  | openFails error hopen => exact htaken _ hopen rfl rfl rfl rfl
  | publish spool closing hclose hwriter => exact htaken _ hclose rfl rfl rfl rfl
  | publishFails closing hclose => exact htaken _ hclose rfl rfl rfl rfl
  | putClose closing others hclosing hroom =>
    exact hkept rfl (by rw [eventsOf_append]; exact List.append_nil _) (hs.same rfl rfl)
  | _ => exact hkept rfl rfl (hs.same rfl rfl)

/-! ## Runs -/

/-- The states of the runs whose steps meet a condition. -/
inductive ReachableBy (fmt : Codec) (queueMaxEvents : Nat) (descriptor : SessionDescriptor)
    (allowed : State → State → Prop) : State → Prop
  | opened (policy : StorageFailurePolicy) :
      ReachableBy fmt queueMaxEvents descriptor allowed (.opened policy)
  | disabled (policy : StorageFailurePolicy) (error : String) :
      ReachableBy fmt queueMaxEvents descriptor allowed (.disabled policy error)
  | step {s t : State} (h : ReachableBy fmt queueMaxEvents descriptor allowed s)
      (hstep : Step fmt queueMaxEvents descriptor s t) (hallowed : allowed s t) :
      ReachableBy fmt queueMaxEvents descriptor allowed t

/-- The thread handles an event without a failing write. -/
def WritesSucceed (fmt : Codec) (s t : State) : Prop := ∀ event,
  s.inHand = some (.event event) → t.inHand = none → t = s.handled fmt event none

/-- What holds of the events in every run without a failing write. -/
structure Sound (fmt : Codec) (descriptor : SessionDescriptor) (s : State)
    (done : List CaptureEvent) : Prop where
  captured : Captured fmt descriptor s done
  numbered : Numbered s (done ++ eventsOf (pending s))
  clean : ∀ spool, s.writer = some spool → spool.errors = []

/-- The thread accepts the event in its hand. -/
theorem Sound.accepted {done : List CaptureEvent} (h : Sound fmt descriptor s done)
    {event : CaptureEvent} {spool : SessionSpool} (hevent : s.inHand = some (.event event))
    (hspool : s.writer = some spool) : Accepted spool event := by
  have hpending : done ++ eventsOf (pending s) = done ++ [event] ++ eventsOf s.queue := by
    rw [pending, hevent, List.append_assoc]
    rfl
  have hsequential := h.numbered.sequential
  rw [hpending, sequential_append, sequential_append] at hsequential
  exact hsequential.1.2.1.accepted (h.captured.writer spool hspool (h.clean spool hspool))

theorem Sound.step {done : List CaptureEvent} (h : Sound fmt descriptor s done)
    (hstep : Step fmt queueMaxEvents descriptor s t) (hwrites : WritesSucceed fmt s t) :
    Sound fmt descriptor t (doneAfter s t done) := by
  refine ⟨step_captured hstep h.captured, step_numbered hstep h.captured h.numbered, ?_⟩
  cases hstep with
  | handle event fault hevent =>
    rw [hwrites event hevent (handled_inHand event fault)]
    intro spool hspool
    unfold State.handled at hspool
    split at hspool
    · next hnone => cases hnone.symm.trans hspool
    · next before hbefore =>
      obtain rfl : handleEvent fmt before event none = spool := Option.some.inj hspool
      rw [handleEvent, (append_none fmt).mpr ⟨h.accepted hevent hbefore, rfl⟩]
      exact h.clean before hbefore
  | openSpool hopen =>
    intro spool hspool
    cases hspool
    rfl
  | publish spool closing hclose hwriter => exact fun _ hspool => nomatch hspool
  | publishFails closing hclose => exact fun _ hspool => nomatch hspool
  | stopThread hfree => exact fun _ hspool => nomatch hspool
  | _ => exact h.clean

theorem numbered_opened (policy : StorageFailurePolicy) : Numbered (.opened policy) [] where
  sequential := trivial
  next _ := rfl
  reading _ direction _ := by cases direction <;> exact ⟨rfl, rfl⟩
  forwarding _ direction _ h := by cases direction <;> cases h
  distinct := List.nodup_nil
  below _ h := absurd h List.not_mem_nil

theorem numbered_disabled (policy : StorageFailurePolicy) (error : String) :
    Numbered (.disabled policy error) [] where
  sequential := trivial
  next h := nomatch h
  reading h := nomatch h
  forwarding h := nomatch h
  distinct := List.nodup_nil
  below _ h := absurd h List.not_mem_nil

/-- Runs without a failing write are sound, and where no frame is dropped or
interrupted they keep every number. -/
theorem sound_of_reachableBy {allowed : State → State → Prop}
    (hwrites : ∀ s t, allowed s t → WritesSucceed fmt s t)
    (h : ReachableBy fmt queueMaxEvents descriptor allowed s) :
    ∃ done, Sound fmt descriptor s done ∧
      ((∀ s t, allowed s t → ¬ Dropped s t ∧ ¬ Interrupted s t) →
        Kept s (done ++ eventsOf (pending s))) := by
  induction h with
  | opened policy =>
    refine ⟨[], ⟨captured_opened policy, numbered_opened policy, fun _ h => nomatch h⟩,
      fun _ => rfl⟩
  | disabled policy error =>
    refine ⟨[], ⟨captured_disabled policy error, numbered_disabled policy error,
      fun _ h => nomatch h⟩, fun _ => rfl⟩
  | step _ hstep hallowed ih =>
    obtain ⟨done, hsound, hkept⟩ := ih
    refine ⟨_, hsound.step hstep (hwrites _ _ hallowed), fun hfree => ?_⟩
    obtain ⟨hdropped, hinterrupted⟩ := hfree _ _ hallowed
    exact step_kept hstep hsound.numbered hdropped hinterrupted (hkept hfree)

/-- Numbers that are distinct and below their count are all the numbers below it. -/
theorem perm_range {numbers : List Nat} (hdistinct : numbers.Nodup)
    (hbelow : ∀ n ∈ numbers, n < numbers.length) :
    numbers.Perm (List.range numbers.length) := by
  have hsubset : numbers ⊆ List.range numbers.length :=
    fun n hn => List.mem_range.mpr (hbelow n hn)
  exact (hdistinct.subperm hsubset).perm_of_length_le (List.length_range.le)

/-- In every run without a failing write the spool accepts every event, and the
observed numbers it wrote are distinct. Where no frame was dropped and no pump
stopped with a frame in its hands, they are all the numbers from zero, once no
event is pending. -/
theorem event_numbers (h : ReachableBy fmt queueMaxEvents descriptor (WritesSucceed fmt) s)
    {spool : SessionSpool} (hspool : s.writer = some spool) :
    (∀ event, s.inHand = some (.event event) → appendError spool event = none) ∧
      ∃ written, appendAll fmt { descriptor } written = some spool ∧
        (written.map CaptureEvent.observedSequence).Nodup ∧
        (ReachableBy fmt queueMaxEvents descriptor (fun s t =>
            WritesSucceed fmt s t ∧ ¬ Dropped s t ∧ ¬ Interrupted s t) s →
          eventsOf (pending s) = [] →
          (∀ direction frame, s.pump direction ≠ .forwarding frame) →
          (written.map CaptureEvent.observedSequence).Perm (List.range written.length)) := by
  have hfound : ∃ done, Sound fmt descriptor s done ∧
      (ReachableBy fmt queueMaxEvents descriptor (fun s t =>
        WritesSucceed fmt s t ∧ ¬ Dropped s t ∧ ¬ Interrupted s t) s →
        Kept s (done ++ eventsOf (pending s))) := by
    by_cases hfree : ReachableBy fmt queueMaxEvents descriptor (fun s t =>
        WritesSucceed fmt s t ∧ ¬ Dropped s t ∧ ¬ Interrupted s t) s
    · obtain ⟨done, hsound, hkept⟩ := sound_of_reachableBy (fun _ _ hallowed => hallowed.1) hfree
      exact ⟨done, hsound, fun _ => hkept fun _ _ hallowed => hallowed.2⟩
    · obtain ⟨done, hsound, -⟩ := sound_of_reachableBy (fun _ _ => id) h
      exact ⟨done, hsound, fun hreached => absurd hreached hfree⟩
  obtain ⟨done, hsound, hkept⟩ := hfound
  refine ⟨fun event hevent => appendError_eq_none.mpr (hsound.accepted hevent hspool), done,
    hsound.captured.writer spool hspool (hsound.clean spool hspool), ?_,
    fun hfree hempty hidle => ?_⟩
  · have hdistinct := hsound.numbered.distinct
    rw [numbers, List.map_append] at hdistinct
    exact hdistinct.of_append_left.of_append_left
  · have hheld : ∀ direction, held (s.pump direction) = [] := fun direction => by
      cases hpump : s.pump direction with
      | forwarding frame => exact absurd hpump (hidle direction frame)
      | _ => rfl
    have hnumbers : numbers s (done ++ eventsOf (pending s)) =
        done.map CaptureEvent.observedSequence := by
      rw [numbers, hheld, hheld, hempty, List.append_nil, List.append_nil, List.append_nil]
    have hcount := hkept hfree
    have hdistinct := hsound.numbered.distinct
    have hbelow := hsound.numbered.below
    rw [Kept, hnumbers] at hcount
    rw [hnumbers] at hdistinct hbelow
    rw [← hcount] at hbelow
    have hrange := perm_range hdistinct hbelow
    rwa [List.length_map] at hrange

/-! ## Two sessions -/

theorem ReachableBy.mono {allowed allowed' : State → State → Prop}
    (hallowed : ∀ s t, allowed s t → allowed' s t)
    (h : ReachableBy fmt queueMaxEvents descriptor allowed s) :
    ReachableBy fmt queueMaxEvents descriptor allowed' s := by
  induction h with
  | opened policy => exact .opened policy
  | disabled policy error => exact .disabled policy error
  | step _ hstep hstepped ih => exact .step ih hstep (hallowed _ _ hstepped)

theorem writesSucceed_same (h : t.inHand = s.inHand) : WritesSucceed fmt s t := by
  intro event hevent hnone
  rw [h, hevent] at hnone
  cases hnone

/-- A session that still accepts has dropped nothing. -/
theorem not_dropped (hmanager : s.session.manager = true)
    (haccepting : t.session.accepting = true) : ¬ Dropped s t := by
  rintro ⟨full, direction, frame, forwardError, forwardedAtUtc, -, rfl, hnone⟩
  rcases record_cases s.session full direction frame forwardError forwardedAtUtc
    (fun _ => hmanager) with ⟨hrecord, -⟩ | ⟨-, hclosed⟩
  · rw [hrecord] at hnone
    cases hnone
  · have hsession : (s.session.record full direction frame forwardError
        forwardedAtUtc).2.accepting = true := haccepting
    rw [hclosed] at hsession
    cases hsession

/-- Pumps that run were not interrupted. -/
theorem not_interrupted (h : ∀ direction, (t.pump direction).done = false) : ¬ Interrupted s t := by
  rintro ⟨direction, frame, pump, -, hdone, rfl⟩
  have hself : (s.setPump direction pump).pump direction = pump := by
    rw [State.setPump, pump_set direction direction _ s.counters, if_pos rfl]
  have hrunning := h direction
  rw [hself, hdone] at hrunning
  cases hrunning

/-- A chunk of the client and one of the device, the later of them written first. -/
theorem event_numbers_sample : ∃ (s : State) (spool : SessionSpool),
    ReachableBy runtime 4 sampleDescriptor (WritesSucceed runtime) s ∧ s.writer = some spool ∧
    ∃ written, appendAll runtime { descriptor := sampleDescriptor } written = some spool ∧
      (written.map CaptureEvent.observedSequence).Perm (List.range written.length) := by
  have hrunning : ∀ {s : State}, (s.pump .clientToDevice).done = false →
      (s.pump .deviceToClient).done = false → ∀ direction, (s.pump direction).done = false := by
    intro s hclient hdevice direction
    cases direction
    · exact hclient
    · exact hdevice
  have hfree : ∀ {s t : State}, s.session.manager = true → t.session.accepting = true →
      (t.pump .clientToDevice).done = false → (t.pump .deviceToClient).done = false →
      ¬ Dropped s t ∧ ¬ Interrupted s t := fun hmanager haccepting hclient hdevice =>
    ⟨not_dropped hmanager haccepting, not_interrupted (hrunning hclient hdevice)⟩
  have h : ReachableBy runtime 4 sampleDescriptor (fun s t =>
      WritesSucceed runtime s t ∧ ¬ Dropped s t ∧ ¬ Interrupted s t) (.opened .abort) :=
    .opened .abort
  have h := h.step (.take _ .open [] rfl rfl rfl)
    ⟨fun _ hevent => (nomatch hevent), hfree rfl rfl rfl rfl⟩
  have h := h.step (.openSpool _ rfl) ⟨fun _ hevent => (nomatch hevent), hfree rfl rfl rfl rfl⟩
  have h := h.step (.read _ .clientToDevice [0x1b, 0x40] "2026-07-01T10:00:01.000000Z" 2000 rfl
    (List.cons_ne_nil _ _)) ⟨writesSucceed_same rfl, hfree rfl rfl rfl rfl⟩
  have h := h.step (.read _ .deviceToClient [0x06] "2026-07-01T10:00:01.000000Z" 2100 rfl
    (List.cons_ne_nil _ _)) ⟨writesSucceed_same rfl, hfree rfl rfl rfl rfl⟩
  have h := h.step (.forward _ .deviceToClient _ none "2026-07-01T10:00:01.000500Z" 0 rfl)
    ⟨writesSucceed_same rfl, hfree rfl rfl rfl rfl⟩
  have h := h.step (.forward _ .clientToDevice _ none "2026-07-01T10:00:01.000700Z" 0 rfl)
    ⟨writesSucceed_same rfl, hfree rfl rfl rfl rfl⟩
  have h := h.step (.take _ _ _ rfl rfl rfl)
    ⟨fun _ hevent => (nomatch hevent), hfree rfl rfl rfl rfl⟩
  have h := h.step (.handle _ _ none rfl) ⟨fun event hevent _ => by cases hevent; rfl,
    hfree rfl rfl rfl rfl⟩
  have h := h.step (.take _ _ _ rfl rfl rfl)
    ⟨fun _ hevent => (nomatch hevent), hfree rfl rfl rfl rfl⟩
  have h := h.step (.handle _ _ none rfl) ⟨fun event hevent _ => by cases hevent; rfl,
    hfree rfl rfl rfl rfl⟩
  have hrun := h.mono fun _ _ hallowed => hallowed.1
  obtain ⟨-, written, hwritten, -, hrange⟩ := event_numbers hrun rfl
  refine ⟨_, _, hrun, rfl, written, hwritten, hrange h rfl fun direction frame => ?_⟩
  cases direction <;> exact Pump.noConfusion

def sampleAnswer : CaptureEvent where
  sequence := 0
  observedSequence := 1
  directionSequence := 0
  direction := .deviceToClient
  kind := "data"
  capturedAtUtc := "2026-07-01T10:00:01.000000Z"
  capturedMonotonicNs := 2100
  offset := 0
  payload := [0x06]
  forwarded := true
  forwardedAtUtc := "2026-07-01T10:00:01.000500Z"

/-- The client's bytes are numbered and their pump is cancelled, after the idle
timeout, while it forwards them: nothing is dropped, and the number 1 of the
device's answer is the only one that is written. -/
theorem cancelled_leaves_gap : ∃ (s : State) (spool : SessionSpool) (written : List CaptureEvent),
    ReachableBy runtime 4 sampleDescriptor
      (fun s t => WritesSucceed runtime s t ∧ ¬ Dropped s t) s ∧
    s.session.accepting = true ∧ s.session.droppedChunks = 0 ∧ pending s = [] ∧
    (∀ direction, (s.pump direction).done = true) ∧ s.writer = some spool ∧
    appendAll runtime { descriptor := sampleDescriptor } written = some spool ∧
    ¬ (written.map CaptureEvent.observedSequence).Perm (List.range written.length) := by
  have h : ReachableBy runtime 4 sampleDescriptor
      (fun s t => WritesSucceed runtime s t ∧ ¬ Dropped s t) (.opened .abort) := .opened .abort
  have h := h.step (.take _ .open [] rfl rfl rfl)
    ⟨fun _ hevent => (nomatch hevent), not_dropped rfl rfl⟩
  have h := h.step (.openSpool _ rfl) ⟨fun _ hevent => (nomatch hevent), not_dropped rfl rfl⟩
  have h := h.step (.read _ .clientToDevice [0x1b, 0x40] "2026-07-01T10:00:01.000000Z" 2000 rfl
    (List.cons_ne_nil _ _)) ⟨writesSucceed_same rfl, not_dropped rfl rfl⟩
  have h := h.step (.read _ .deviceToClient [0x06] "2026-07-01T10:00:01.000000Z" 2100 rfl
    (List.cons_ne_nil _ _)) ⟨writesSucceed_same rfl, not_dropped rfl rfl⟩
  have h := h.step (.forward _ .deviceToClient _ none "2026-07-01T10:00:01.000500Z" 0 rfl)
    ⟨writesSucceed_same rfl, not_dropped rfl rfl⟩
  have h := h.step (.take _ _ _ rfl rfl rfl) ⟨fun _ hevent => (nomatch hevent), not_dropped rfl rfl⟩
  have h := h.step (.handle _ _ none rfl)
    ⟨fun event hevent _ => by cases hevent; rfl, not_dropped rfl rfl⟩
  have h := h.step (.idle _ rfl) ⟨writesSucceed_same rfl, not_dropped rfl rfl⟩
  have h := h.step (.firstWait _ .clientToDevice rfl (Or.inl rfl))
    ⟨writesSucceed_same rfl, not_dropped rfl rfl⟩
  have h := h.step (.pumpCancelled _ .clientToDevice rfl (Or.inr ⟨_, rfl⟩))
    ⟨writesSucceed_same rfl, not_dropped rfl rfl⟩
  have h := h.step (.pumpCancelled _ .deviceToClient rfl (Or.inr ⟨_, rfl⟩))
    ⟨writesSucceed_same rfl, not_dropped rfl rfl⟩
  have haccepted : Accepted { descriptor := sampleDescriptor } sampleAnswer :=
    appendError_eq_none.mp (by decide)
  refine ⟨_, handleEvent runtime { descriptor := sampleDescriptor } sampleAnswer none,
    [sampleAnswer], h, rfl, rfl, rfl, fun direction => by cases direction <;> rfl, rfl, ?_,
    by decide⟩
  rw [handleEvent, (append_none runtime).mpr ⟨haccepted, rfl⟩]
  exact (appendAll_cons runtime).mpr ⟨haccepted, rfl⟩

end

end RetailPrintGuard.Proxy.EventNumbers
