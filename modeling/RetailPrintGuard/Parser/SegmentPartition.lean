import RetailPrintGuard.Parser.EscposSegments

/-! # The segments of a stream

The segments stand one behind the other and hold every byte of the stream. -/
namespace RetailPrintGuard.Parser.SegmentPartition
open RetailPrintGuard.Parser.EscposCommands
open RetailPrintGuard.Parser.EscposSegments

/-- The segments stand one behind the other from `start` to `stop`. -/
def Contiguous : Nat → List Segment → Nat → Prop
  | start, [], stop => start = stop
  | start, segment :: segments, stop =>
    segment.baseOffset = start ∧ Contiguous (start + segment.payload.length) segments stop

/-- The bytes of all segments. -/
def joined (segments : List Segment) : Bytes := segments.flatMap Segment.payload

/-- The loop of `_segments` comes to its end, with these segments and the start
of the one that is open. -/
inductive Finishes (payload : Bytes) :
    List Segment → Nat → Nat → List Segment × Nat → Prop
  | done {result start cursor}
      (h : ¬ (cursor + 2 < payload.length ∧ result.length < maxDocuments - 1)) :
      Finishes payload result start cursor (result, start)
  | stop {result start cursor} (hturn : turn payload cursor = .stop) :
      Finishes payload result start cursor (result, start)
  | skip {result start cursor next out} (hturn : turn payload cursor = .skip next)
      (h : Finishes payload result start next out) : Finishes payload result start cursor out
  | cut {result start cursor cutEnd out} (hturn : turn payload cursor = .cut cutEnd)
      (h : Finishes payload (result ++ [ticket payload start cutEnd]) (segmentEnd payload cutEnd)
        (segmentEnd payload cutEnd) out) : Finishes payload result start cursor out

/-- The printer reset ESC @. -/
def reset : Bytes := [0x1B, 0x40]

variable {payload : Bytes} {result parts : List Segment} {segment : Segment}
variable {start stop cursor fuel : Nat}

theorem Contiguous.append {last : Nat} (h : Contiguous start parts last)
    (hsegment : segment.baseOffset = last) (hstop : last + segment.payload.length = stop) :
    Contiguous start (parts ++ [segment]) stop := by
  induction parts generalizing start with
  | nil =>
    obtain rfl : start = last := h
    exact ⟨hsegment, hstop⟩
  | cons first parts ih => exact ⟨h.1, ih h.2⟩

theorem joined_append : joined (parts ++ [segment]) = joined parts ++ segment.payload := by
  simp [joined]

theorem length_slice (hstop : stop ≤ payload.length) :
    (slice payload start stop).length = stop - start := by
  rw [slice, List.length_drop, List.length_take, Nat.min_eq_left hstop]

theorem take_append_slice (h : start ≤ stop) :
    payload.take start ++ slice payload start stop = payload.take stop := by
  have htake : (payload.take stop).take start = payload.take start := by
    rw [List.take_take, Nat.min_eq_left h]
  rw [← htake, slice, List.take_append_drop]

theorem reset_prefix_slice (hpair : pairAt 0x1B 0x40 payload start = true)
    (hstop : start + 2 ≤ stop) : reset <+: slice payload start stop := by
  obtain ⟨hfirst, hsecond⟩ := Bool.and_eq_true_iff.mp hpair
  have hat0 : (slice payload start stop)[0]? = some 0x1B := by
    rw [slice, List.getElem?_drop, List.getElem?_take_of_lt (by omega)]
    exact beq_iff_eq.mp hfirst
  have hat1 : (slice payload start stop)[1]? = some 0x40 := by
    rw [slice, List.getElem?_drop, List.getElem?_take_of_lt (by omega)]
    exact beq_iff_eq.mp hsecond
  match hslice : slice payload start stop with
  | [] => simp [hslice] at hat0
  | [_] => simp [hslice] at hat1
  | first :: second :: rest =>
    simp only [hslice, List.getElem?_cons_zero, List.getElem?_cons_succ, Option.some.injEq]
      at hat0 hat1
    rw [hat0, hat1]
    exact ⟨rest, rfl⟩

theorem segmentEnd_le : segmentEnd payload cursor ≤ payload.length := by
  unfold segmentEnd
  cases hfind : findPair 0x1B 0x40 payload cursor with
  | none => exact Nat.le_refl _
  | some i =>
    have hpair := (findPair_eq_some.mp hfind).2.1
    unfold pairAt at hpair
    grind

/-- A segment ends where the payload does or where a reset stands. -/
theorem segmentEnd_reset : segmentEnd payload cursor = payload.length ∨
    pairAt 0x1B 0x40 payload (segmentEnd payload cursor) = true := by
  unfold segmentEnd
  cases hfind : findPair 0x1B 0x40 payload cursor with
  | none => exact Or.inl rfl
  | some i => exact Or.inr (findPair_eq_some.mp hfind).2.1

/-! ## The loop -/

/-- The segments so far hold the bytes up to the one that is open. -/
structure Parts (payload : Bytes) (result : List Segment) (start : Nat) : Prop where
  contiguous : Contiguous 0 result start
  joined : joined result = payload.take start
  within : start ≤ payload.length
  cut : ∀ segment ∈ result, segment.cutObserved = true
  resets : ∀ segment ∈ result.tail, reset <+: segment.payload
  opened : result = [] ∨ start = payload.length ∨ pairAt 0x1B 0x40 payload start = true

theorem parts_empty : Parts payload [] 0 :=
  ⟨rfl, rfl, Nat.zero_le _, fun _ h => absurd h List.not_mem_nil,
    fun _ h => absurd h List.not_mem_nil, Or.inl rfl⟩

/-- The segment that is open begins with a reset, the first one apart. -/
theorem Parts.resets_concat (h : Parts payload result start) (hin : start < payload.length)
    (hstop : start + 2 ≤ stop) (hsegment : segment.payload = slice payload start stop) :
    ∀ other ∈ (result ++ [segment]).tail, reset <+: other.payload := by
  intro other hm
  obtain hempty | hne := Decidable.em (result = [])
  · simp [hempty] at hm
  · rw [List.tail_append_of_ne_nil hne, List.mem_append, List.mem_singleton] at hm
    obtain hm | rfl := hm
    · exact h.resets other hm
    · rw [hsegment]
      obtain hempty | hend | hpair := h.opened
      · exact absurd hempty hne
      · omega
      · exact reset_prefix_slice hpair hstop

theorem Parts.append {cutEnd : Nat} (h : Parts payload result start)
    (hcut : start + 2 ≤ cutEnd) (hwithin : cutEnd ≤ payload.length) :
    Parts payload (result ++ [ticket payload start cutEnd]) (segmentEnd payload cutEnd) := by
  have hend := le_segmentEnd hwithin
  have hlast := @segmentEnd_le payload cutEnd
  refine ⟨?_, ?_, hlast, fun segment hm => ?_,
    h.resets_concat (by omega) (by omega : start + 2 ≤ segmentEnd payload cutEnd) rfl,
    Or.inr segmentEnd_reset⟩
  · refine h.contiguous.append rfl ?_
    show start + (slice payload start (segmentEnd payload cutEnd)).length = _
    rw [length_slice hlast]
    omega
  · rw [joined_append, h.joined]
    exact take_append_slice (by omega)
  · obtain hm | hm := List.mem_append.mp hm
    · exact h.cut segment hm
    · rw [List.mem_singleton.mp hm]
      rfl

/-- Every turn moves the cursor on, so that the loop ends within the fuel. -/
theorem segmentsFrom_parts (h : Parts payload result start) (hcursor : start ≤ cursor)
    (hfuel : payload.length ≤ cursor + fuel) (hmax : result.length ≤ maxDocuments - 1) :
    let out := segmentsFrom payload fuel result start cursor
    Finishes payload result start cursor out ∧ Parts payload out.1 out.2 ∧
      out.1.length ≤ maxDocuments - 1 := by
  induction fuel generalizing result start cursor with
  | zero => exact ⟨.done fun hin => absurd hin.1 (by omega), h, hmax⟩
  | succ fuel ih =>
    rw [segmentsFrom]
    split
    · next hin =>
      cases hturn : turn payload cursor with
      | stop => exact ⟨.stop hturn, h, hmax⟩
      | skip next =>
        obtain ⟨m, hle, rfl, -⟩ := turn_eq_skip hturn
        obtain ⟨hends, hparts⟩ := ih h (by omega : start ≤ m + 2) (by omega) hmax
        exact ⟨.skip hturn hends, hparts⟩
      | cut cutEnd =>
        obtain ⟨m, hle, hcut, -⟩ := turn_eq_cut hturn
        have hbounds := cutEnd_bounds hcut
        have hend := le_segmentEnd hbounds.2
        have hroom : (result ++ [ticket payload start cutEnd]).length ≤ maxDocuments - 1 := by
          rw [List.length_append, List.length_singleton]
          omega
        obtain ⟨hends, hparts⟩ :=
          ih (h.append (by omega) hbounds.2) (Nat.le_refl _) (by omega) hroom
        exact ⟨.cut hturn hends, hparts⟩
    · next hout => exact ⟨.done hout, h, hmax⟩

/-! ## The segments -/

/-- The loop ends, and its segments split the stream at resets: nothing is lost
or repeated, every segment but the last one shows a cut and every one but the
first begins with the reset. -/
theorem segments_partition (payload : Bytes) :
    Finishes payload [] 0 0 (segmentsFrom payload payload.length [] 0 0) ∧
      Contiguous 0 (segments payload) payload.length ∧
      joined (segments payload) = payload ∧
      (segments payload).length ≤ maxDocuments ∧
      (∀ segment ∈ (segments payload).dropLast, segment.cutObserved = true) ∧
      (∀ segment ∈ (segments payload).tail, reset <+: segment.payload) := by
  obtain ⟨hends, hparts, hmax⟩ :=
    @segmentsFrom_parts payload [] 0 0 payload.length parts_empty (Nat.le_refl 0) (by omega)
      (Nat.zero_le _)
  refine ⟨hends, ?_⟩
  unfold segments
  generalize segmentsFrom payload payload.length [] 0 0 = out at hparts hmax
  obtain ⟨result, start⟩ := out
  simp only at hparts hmax ⊢
  have hwithin := hparts.within
  by_cases hrest : start < payload.length ∨ result = []
  · have hlength : (result ++ [remainder payload start]).length ≤ maxDocuments := by
      rw [List.length_append, List.length_singleton]
      unfold maxDocuments at hmax ⊢
      omega
    rw [if_pos hrest]
    unfold remainder at hlength
    rw [List.take_of_length_le hlength]
    refine ⟨?_, ?_, hlength, ?_, ?_⟩
    · refine hparts.contiguous.append rfl ?_
      rw [List.length_drop]
      omega
    · rw [joined_append, hparts.joined, List.take_append_drop]
    · rw [List.dropLast_concat]
      exact hparts.cut
    · obtain hin | rfl := hrest
      · have hslice : slice payload start (payload.length + 2) = payload.drop start := by
          rw [slice, List.take_of_length_le (by omega)]
        exact hparts.resets_concat hin (by omega) hslice.symm
      · exact fun _ hm => absurd hm List.not_mem_nil
  · have hend : start = payload.length := by omega
    rw [if_neg hrest, List.take_of_length_le (by unfold maxDocuments at hmax ⊢; omega)]
    refine ⟨hend ▸ hparts.contiguous, ?_, by unfold maxDocuments at hmax ⊢; omega,
      fun segment hm => hparts.cut segment (List.dropLast_subset _ hm), hparts.resets⟩
    rw [hparts.joined, List.take_of_length_le (by omega)]

end RetailPrintGuard.Parser.SegmentPartition
