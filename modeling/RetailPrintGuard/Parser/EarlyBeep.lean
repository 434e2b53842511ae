import RetailPrintGuard.Parser.Beeper
import RetailPrintGuard.Parser.SegmentPartition

/-! # The bell on a growing file

The bell may ring while a job is still being written: every look at the file
splits what is there. The tickets before the last one stay as they are. The
last one takes the bytes up to the next printer reset, and with them it may
become another document. -/
namespace RetailPrintGuard.Parser.EarlyBeep
open RetailPrintGuard.Common.Amounts (Raised)
open RetailPrintGuard.Common.CodePages
open RetailPrintGuard.Parser.Beeper RetailPrintGuard.Parser.Documents
open RetailPrintGuard.Parser.Escpos RetailPrintGuard.Parser.EscposSegments
open RetailPrintGuard.Parser.SegmentPartition (length_slice reset segmentEnd_le)

/-- The segment rings the bell: it shows a cut and is a kitchen order. -/
def rings (encoding : Encoding) (segment : Segment) : Except Raised Bool :=
  if segment.payload.isEmpty || !segment.cutObserved then .ok false
  else isKitchenOrder encoding segment

/-- The one order that rings on the payload is its last ticket, which is still
open; with the later bytes it rings no more. -/
structure Reclassified (encoding : Encoding) (payload later : Bytes) (order grown : Segment) :
    Prop where
  rang : order ∈ segments payload ∧ rings encoding order = .ok true
  only : ∀ segment ∈ segments payload, rings encoding segment = .ok true → segment = order
  last : order.baseOffset + order.payload.length = payload.length
  unreset : ¬ reset <+: later
  grows : grown ∈ segments (payload ++ later) ∧ grown.baseOffset = order.baseOffset
  silent : rings encoding grown ≠ .ok true

/-! ## Tickets of a longer payload -/

variable {payload later : Bytes} {start stop cutEnd' i j n : Nat} {encoding : Encoding}

theorem pairAt_lt {first second : UInt8} (h : pairAt first second payload i = true) :
    i + 1 < payload.length := by
  unfold pairAt at h
  grind

theorem pairAt_append {first second : UInt8} (h : i + 1 < payload.length) :
    pairAt first second (payload ++ later) i = pairAt first second payload i := by
  unfold pairAt
  rw [List.getElem?_append_left (by omega), List.getElem?_append_left h]

theorem getD_append (h : i < payload.length) :
    (payload ++ later).getD i 0 = payload.getD i 0 := by
  rw [List.getD_eq_getElem?_getD, List.getD_eq_getElem?_getD, List.getElem?_append_left h]

/-- A cut stays where it is. -/
theorem cutEnd_append (h : cutEnd payload i = some cutEnd') :
    cutEnd (payload ++ later) i = some cutEnd' := by
  have hbounds := cutEnd_bounds h
  have hesc : escPair (payload ++ later) i = escPair payload i := pairAt_append (by omega)
  have hgs : gsPair (payload ++ later) i = gsPair payload i := pairAt_append (by omega)
  have hlength : (payload ++ later).length = payload.length + later.length :=
    List.length_append
  have hmode : i + 2 < payload.length →
      (payload ++ later).getD (i + 2) 0 = payload.getD (i + 2) 0 := getD_append
  unfold cutEnd at h ⊢
  rw [hesc, hgs]
  grind

/-- Before a cut no other one comes up. -/
theorem cutEnd_append_none (hcut : cutEnd payload i = some cutEnd') (hlt : j < i)
    (h : cutEnd payload j = none) : cutEnd (payload ++ later) j = none := by
  have hbounds := cutEnd_bounds hcut
  have hesc : escPair (payload ++ later) j = escPair payload j := pairAt_append (by omega)
  have hgs : gsPair (payload ++ later) j = gsPair payload j := pairAt_append (by omega)
  have hmode : (payload ++ later).getD (j + 2) 0 = payload.getD (j + 2) 0 :=
    getD_append (by omega)
  -- the mode of a GS V right before the cut would be the cut's first byte
  have hnext : gsPair payload j = true → j + 1 ≠ i := by
    rintro hpair rfl
    rw [cutEnd_succ_of_gsPair hpair] at hcut
    cases hcut
  unfold cutEnd at h ⊢
  rw [hesc, hgs, hmode]
  grind

theorem firstCut_append (h : firstCut payload start = some cutEnd') :
    firstCut (payload ++ later) start = some cutEnd' := by
  obtain ⟨m, hle, hcut, hread, hmin⟩ := firstCut_eq_some.mp h
  refine firstCut_eq_some.mpr ⟨m, hle, cutEnd_append hcut, ?_, fun j hj hlt =>
    cutEnd_append_none hcut hlt (hmin j hj hlt)⟩
  obtain rfl | hne := Decidable.em (later = [])
  · rw [List.append_nil]
    exact hread
  · have hbounds := cutEnd_bounds hcut
    have hlater := List.length_pos_iff.mpr hne
    simp only [overlooked, List.length_append, Bool.and_eq_false_iff, beq_eq_false_iff_ne]
    exact Or.inl (by omega)

/-- The end of a ticket stays where a reset closes it. -/
theorem segmentEnd_append (hle : stop ≤ payload.length)
    (h : segmentEnd payload stop < payload.length ∨ reset <+: later) :
    segmentEnd (payload ++ later) stop = segmentEnd payload stop := by
  unfold segmentEnd at h ⊢
  cases hfind : findPair 0x1B 0x40 payload stop with
  | some i =>
    obtain ⟨hi, hpair, hmin⟩ := findPair_eq_some.mp hfind
    have hlt := pairAt_lt hpair
    have hfound : findPair 0x1B 0x40 (payload ++ later) stop = some i := by
      refine findPair_eq_some.mpr ⟨hi, ?_, fun j hj hji => ?_⟩
      · rw [pairAt_append hlt]
        exact hpair
      · rw [pairAt_append (by omega)]
        exact hmin j hj hji
    rw [hfound]
    rfl
  | none =>
    rw [hfind] at h
    obtain hlt | ⟨rest, rfl⟩ := h
    · exact absurd hlt (Nat.lt_irrefl _)
    · have hnone := findPair_eq_none.mp hfind
      have hfound : findPair 0x1B 0x40 (payload ++ (reset ++ rest)) stop =
          some payload.length := by
        refine findPair_eq_some.mpr ⟨hle, by simp [pairAt, reset], fun j hj hlt => ?_⟩
        obtain hbefore | hlast : j + 1 < payload.length ∨ j + 1 = payload.length := by omega
        · rw [pairAt_append hbefore]
          exact hnone j hj
        · -- the byte behind the payload is ESC
          simp [pairAt, reset, hlast]
      rw [hfound]
      rfl

theorem ticket_append (hle : stop ≤ payload.length)
    (h : segmentEnd payload stop < payload.length ∨ reset <+: later) :
    ticket (payload ++ later) start stop = ticket payload start stop := by
  unfold ticket slice
  rw [segmentEnd_append hle h, List.take_append_of_le_length segmentEnd_le]

theorem firstCut_bounds (h : firstCut payload start = some cutEnd') :
    start + 2 ≤ cutEnd' ∧ cutEnd' ≤ payload.length := by
  obtain ⟨m, hle, hcut, -⟩ := firstCut_eq_some.mp h
  have hbounds := cutEnd_bounds hcut
  omega

/-- A ticket that is cut starts where it did. -/
theorem ticketStart_append (h : ticketStart payload n = some start)
    (hcut : firstCut payload start = some cutEnd') :
    ticketStart (payload ++ later) n = some start := by
  induction n generalizing start cutEnd' with
  | zero => exact h
  | succ n ih =>
    rw [ticketStart] at h ⊢
    split at h
    · next hroom =>
      obtain ⟨before, hbefore, hmap⟩ := Option.bind_eq_some_iff.mp h
      obtain ⟨e, he, rfl⟩ := Option.map_eq_some_iff.mp hmap
      have hcut := firstCut_bounds hcut
      rw [if_pos hroom, ih hbefore he, Option.bind_some, firstCut_append he, Option.map_some,
        segmentEnd_append (firstCut_bounds he).2 (Or.inl (by omega))]
    · cases h

/-! ## The loop up to the order that rings -/

variable {parts : List Segment} {segment : Segment}

theorem anyKitchenOrder_cons : anyKitchenOrder encoding (segment :: parts) =
    (rings encoding segment >>= fun found =>
      if found then .ok true else anyKitchenOrder encoding parts) := by
  rw [anyKitchenOrder, rings]
  split
  · rfl
  · rfl

theorem rings_of_uncut (h : segment.cutObserved = false) : rings encoding segment = .ok false := by
  simp [rings, h]

/-- The bell rings at the first order, when no ticket before it fails. -/
theorem anyKitchenOrder_iff : anyKitchenOrder encoding parts = .ok true ↔
    ∃ (n : Nat) (segment : Segment), parts[n]? = some segment ∧
      rings encoding segment = .ok true ∧
      ∀ (j : Nat) (other : Segment), j < n → parts[j]? = some other → rings encoding other = .ok false := by
  induction parts with
  | nil => simp [anyKitchenOrder]
  | cons first parts ih =>
    rw [anyKitchenOrder_cons]
    constructor
    · intro h
      cases hring : rings encoding first with
      | error raised => simp [hring, bind, Except.bind] at h
      | ok found =>
        cases found with
        | true => exact ⟨0, first, rfl, hring, fun j other hj => absurd hj (Nat.not_lt_zero j)⟩
        | false =>
          rw [hring] at h
          obtain ⟨n, segment, hn, hsegment, hbefore⟩ := ih.mp h
          refine ⟨n + 1, segment, hn, hsegment, fun j other hj hother => ?_⟩
          cases j with
          | zero =>
            obtain rfl : first = other := Option.some.inj hother
            exact hring
          | succ j => exact hbefore j other (by omega) hother
    · rintro ⟨n, segment, hn, hsegment, hbefore⟩
      cases n with
      | zero =>
        obtain rfl : first = segment := Option.some.inj hn
        rw [hsegment]
        rfl
      | succ n =>
        rw [hbefore 0 first (by omega) rfl]
        exact ih.mpr ⟨n, segment, hn, hsegment, fun j other hj hother =>
          hbefore (j + 1) other (by omega) hother⟩

/-! ## Rings on a prefix and on the whole -/

/-- The n-th ticket of the payload has a cut. -/
structure CutTicket (payload : Bytes) (n start stop : Nat) : Prop where
  room : n + 1 < maxDocuments
  starts : ticketStart payload n = some start
  cuts : firstCut payload start = some stop

theorem CutTicket.append (h : CutTicket payload n start stop) :
    CutTicket (payload ++ later) n start stop :=
  ⟨h.room, ticketStart_append h.starts h.cuts, firstCut_append h.cuts⟩

theorem CutTicket.getElem? (h : CutTicket payload n start stop) :
    (segments payload)[n]? = some (ticket payload start stop) := by
  obtain ⟨result, last, hsplit, hlast, -, heq⟩ := segments_split payload
  have hget := hsplit.getElem?_eq hlast h.room h.starts h.cuts
  rw [heq, List.getElem?_append_left (List.getElem?_eq_some_iff.mp hget).1]
  exact hget

/-- Before another ticket with a cut, a ticket is closed by a reset. -/
theorem CutTicket.closed {next nextStop : Nat} (h : CutTicket payload n start stop)
    (hnext : CutTicket payload (n + 1) next nextStop) :
    segmentEnd payload stop < payload.length := by
  have hstart := hnext.starts
  rw [ticketStart, if_pos (Nat.lt_of_succ_lt hnext.room), h.starts, Option.bind_some, h.cuts,
    Option.map_some, Option.some.injEq] at hstart
  have hbounds := firstCut_bounds hnext.cuts
  omega

/-- The tickets with a cut stand first among the segments. -/
theorem cutTickets (payload : Bytes) : ∃ count,
    (∀ n, n < count → ∃ start stop, CutTicket payload n start stop) ∧
      ∀ n segment, count ≤ n → (segments payload)[n]? = some segment →
        segment.cutObserved = false := by
  obtain ⟨result, start, hsplit, -, -, heq⟩ := segments_split payload
  have hfit := ticketStart_lt hsplit.next
  refine ⟨result.length, fun n hn => ?_, fun n segment hn hsegment => ?_⟩
  · obtain ⟨a, e, ha, he, -⟩ := hsplit.tickets n _ (List.getElem?_eq_getElem hn)
    exact ⟨a, e, by omega, ha, he⟩
  · rw [heq, List.getElem?_append_right hn] at hsegment
    have hm := List.mem_of_getElem? hsegment
    split at hm
    · rw [List.mem_singleton.mp hm]
      rfl
    · exact absurd hm List.not_mem_nil

/-- A segment that rings is a ticket with a cut, and so are all before it. -/
theorem rings_cutTicket (hn : (segments payload)[n]? = some segment)
    (h : rings encoding segment = .ok true) :
    ∀ j, j ≤ n → ∃ start stop, CutTicket payload j start stop := by
  obtain ⟨count, hcuts, huncut⟩ := cutTickets payload
  have hlt : n < count := by
    by_contra hge
    rw [rings_of_uncut (huncut n segment (by omega) hn)] at h
    cases h
  exact fun j hj => hcuts j (by omega)

/-- The tickets before one with a cut are the same in a longer payload. -/
theorem getElem?_append (h : CutTicket payload n start stop)
    (hnext : ∃ next nextStop, CutTicket payload (n + 1) next nextStop) :
    (segments (payload ++ later))[n]? = (segments payload)[n]? := by
  obtain ⟨next, nextStop, hnext⟩ := hnext
  rw [h.append.getElem?, h.getElem?,
    ticket_append (firstCut_bounds h.cuts).2 (Or.inl (h.closed hnext))]

theorem ticket_end (h : firstCut payload start = some stop) :
    start + (ticket payload start stop).payload.length = segmentEnd payload stop := by
  have hbounds := firstCut_bounds h
  have hend := le_segmentEnd hbounds.2
  show start + (slice payload start (segmentEnd payload stop)).length = _
  rw [length_slice segmentEnd_le]
  omega

theorem anyKitchenOrder_append (h : anyKitchenOrder encoding (segments payload) = .ok true) :
    anyKitchenOrder encoding (segments (payload ++ later)) = .ok true ∨
      ∃ order grown, Reclassified encoding payload later order grown := by
  obtain ⟨n, order, hn, hrings, hbefore⟩ := anyKitchenOrder_iff.mp h
  have hcuts := rings_cutTicket hn hrings
  obtain ⟨start, stop, hticket⟩ := hcuts n (Nat.le_refl n)
  obtain rfl : ticket payload start stop = order :=
    Option.some.inj (hticket.getElem?.symm.trans hn)
  have hgrown := (@CutTicket.append _ later _ _ _ hticket).getElem?
  have hsilent : ∀ j other, j < n → (segments (payload ++ later))[j]? = some other →
      rings encoding other = .ok false := by
    intro j other hj hother
    obtain ⟨a, e, hcut⟩ := hcuts j (by omega)
    rw [getElem?_append hcut (hcuts (j + 1) (by omega))] at hother
    exact hbefore j other hj hother
  by_cases hkept : rings encoding (ticket (payload ++ later) start stop) = .ok true
  · exact Or.inl (anyKitchenOrder_iff.mpr ⟨n, _, hgrown, hkept, hsilent⟩)
  · have hopen : ¬ (segmentEnd payload stop < payload.length ∨ reset <+: later) := fun hclosed =>
      hkept (by rw [ticket_append (firstCut_bounds hticket.cuts).2 hclosed]; exact hrings)
    obtain ⟨hopen, hunreset⟩ := not_or.mp hopen
    refine Or.inr ⟨_, _, ⟨List.mem_of_getElem? hn, hrings⟩, fun segment hm hring => ?_, ?_,
      hunreset, ⟨List.mem_of_getElem? hgrown, rfl⟩, hkept⟩
    · obtain ⟨k, hk⟩ := List.mem_iff_getElem?.mp hm
      obtain hfirst | rfl | hbehind : k < n ∨ k = n ∨ n < k := by omega
      · rw [hbefore k segment hfirst hk] at hring
        cases hring
      · exact Option.some.inj (hk.symm.trans hn)
      · -- another cut behind the order would have closed it
        obtain ⟨next, nextStop, hnext⟩ := rings_cutTicket hk hring (n + 1) hbehind
        exact absurd (hticket.closed hnext) hopen
    · have hend := ticket_end hticket.cuts
      have hlast := @segmentEnd_le payload stop
      show start + _ = _
      omega

/-- What is read of the later bytes. -/
def bytesRead (payload later : Bytes) : Bytes := later.take (maxInputBytes - payload.length)

/-- A bell that rang on a part of the file rings on all of it, or its order was
the open ticket and is something else by now. -/
theorem early_beep_kept (encoding : Encoding) (payload later : Bytes)
    (h : isCompletePosCommand encoding payload = .ok true) :
    isCompletePosCommand encoding (payload ++ later) = .ok true ∨
      ∃ order grown, Reclassified encoding (payload.take maxInputBytes) (bytesRead payload later)
        order grown := by
  unfold isCompletePosCommand at h ⊢
  rw [List.take_append]
  exact anyKitchenOrder_append h

/-- The reset of the next ticket closes the order. -/
theorem early_beep_kept_closed :
    isCompletePosCommand .cp858 (cutOrder ++ [0x1B, 0x40, 0x41]) = .ok true := by
  obtain hkept | ⟨order, grown, hreclassified⟩ :=
    early_beep_kept .cp858 cutOrder [0x1B, 0x40, 0x41] (by decide +kernel)
  · exact hkept
  · exact absurd (by decide +kernel) hreclassified.unreset

/-- COMANDA rings; with ANNULL behind its cut it is a cancellation. -/
theorem early_beep_withdrawn : ¬ ∀ (encoding : Encoding) (payload later : Bytes),
    isCompletePosCommand encoding payload = .ok true →
      isCompletePosCommand encoding (payload ++ later) = .ok true := by
  intro h
  have hall := h .cp858 cutOrder [0x41, 0x4E, 0x4E, 0x55, 0x4C, 0x4C] (by decide +kernel)
  have hsilent : isCompletePosCommand .cp858
      (cutOrder ++ [0x41, 0x4E, 0x4E, 0x55, 0x4C, 0x4C]) = .ok false := by
    decide +kernel
  rw [hsilent] at hall
  cases hall

end RetailPrintGuard.Parser.EarlyBeep
