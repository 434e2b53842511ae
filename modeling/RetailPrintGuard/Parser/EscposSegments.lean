import RetailPrintGuard.Parser.EscposCommands

/-! # ESC/POS segments

A stream is split into tickets at the printer reset that follows a cut. The
split looks for byte pairs, wherever they stand: what it takes for a cut may be
the data of an image. -/
namespace RetailPrintGuard.Parser.EscposSegments
open RetailPrintGuard.Common.CodePages
open RetailPrintGuard.Parser.EscposCommands

def maxDocuments : Nat := 1024

structure Segment where
  payload : Bytes
  baseOffset : Nat
  cutObserved : Bool
deriving DecidableEq

/-- `payload[start:stop]` -/
def slice (payload : Bytes) (start stop : Nat) : Bytes := (payload.take stop).drop start

def pairAt (first second : UInt8) (payload : Bytes) (i : Nat) : Bool :=
  payload[i]? == some first && payload[i + 1]? == some second

/-- `payload.find(bytes((first, second)), cursor)` -/
def findPair (first second : UInt8) (payload : Bytes) (cursor : Nat) : Option Nat :=
  (List.range payload.length).find? fun i => cursor ≤ i && pairAt first second payload i

/-- What one turn of the loop finds from the cursor on. -/
inductive Turn where
  | stop
  | skip (cursor : Nat)
  | cut (cutEnd : Nat)
deriving DecidableEq

/-- The first cut marker: ESC m is a cut, GS V is one in six of its modes. -/
def turn (payload : Bytes) (cursor : Nat) : Turn :=
  let gsMarker := findPair 0x1D 0x56 payload cursor
  let escMarker := findPair 0x1B 0x6D payload cursor
  match (gsMarker.toList ++ escMarker.toList).min? with
  | none => .stop
  | some marker =>
    if pairAt 0x1B 0x6D payload marker then .cut (marker + 2)
    else if payload.length ≤ marker + 2 then .stop
    else
      let mode := payload.getD (marker + 2) 0
      if mode ∈ [0, 1, 48, 49] then .cut (marker + 3)
      else if mode ∈ [65, 66] ∧ marker + 3 < payload.length then .cut (marker + 4)
      else .skip (marker + 2)

/-- Where the segment of a cut ends: at the next ESC @, or with the payload. -/
def segmentEnd (payload : Bytes) (cutEnd : Nat) : Nat :=
  (findPair 0x1B 0x40 payload cutEnd).getD payload.length

/-- The loop of `_segments`; every turn moves the cursor on. -/
def segmentsFrom (payload : Bytes) : Nat → List Segment → Nat → Nat → List Segment × Nat
  | 0, result, start, _ => (result, start)
  | fuel + 1, result, start, cursor =>
    if cursor + 2 < payload.length ∧ result.length < maxDocuments - 1 then
      match turn payload cursor with
      | .stop => (result, start)
      | .skip cursor => segmentsFrom payload fuel result start cursor
      | .cut cutEnd =>
        let stop := segmentEnd payload cutEnd
        segmentsFrom payload fuel (result ++ [⟨slice payload start stop, start, true⟩]) stop stop
    else (result, start)

def segments (payload : Bytes) : List Segment :=
  let (result, start) := segmentsFrom payload payload.length [] 0 0
  let result :=
    if start < payload.length ∨ result = [] then
      result ++ [⟨payload.drop start, start, false⟩]
    else result
  result.take maxDocuments

/-! ## The tickets of a stream -/

def gsPair (payload : Bytes) (i : Nat) : Bool := pairAt 0x1D 0x56 payload i

def escPair (payload : Bytes) (i : Nat) : Bool := pairAt 0x1B 0x6D payload i

/-- Where a byte pair at this place ends as a cut: ESC m, or GS V in a mode the
split knows. -/
def cutEnd (payload : Bytes) (i : Nat) : Option Nat :=
  if escPair payload i then some (i + 2)
  else if gsPair payload i ∧ i + 2 < payload.length then
    let mode := payload.getD (i + 2) 0
    if mode ∈ [0, 1, 48, 49] then some (i + 3)
    else if mode ∈ [65, 66] ∧ i + 3 < payload.length then some (i + 4)
    else none
  else none

/-- An ESC m in the last two bytes is not looked at when the ticket starts with
it or a GS V stands right before it. -/
def overlooked (payload : Bytes) (start i : Nat) : Bool :=
  i + 2 == payload.length && (i == start || (decide (start + 2 ≤ i) && gsPair payload (i - 2)))

/-- The end of the first cut of the ticket that starts here. -/
def firstCut (payload : Bytes) (start : Nat) : Option Nat :=
  ((List.range payload.length).find? fun i =>
    decide (start ≤ i) && ((cutEnd payload i).isSome && !overlooked payload start i)).bind
      (cutEnd payload)

/-- Where the n-th ticket starts. -/
def ticketStart (payload : Bytes) : Nat → Option Nat
  | 0 => some 0
  | n + 1 =>
    if n + 1 < maxDocuments then
      (ticketStart payload n).bind fun start =>
        (firstCut payload start).map (segmentEnd payload)
    else none

/-! ## One turn of the loop -/

variable {payload : Bytes} {start cursor i n : Nat} {segment : Segment}

theorem findPair_eq_some {first second : UInt8} : findPair first second payload cursor = some i ↔
    cursor ≤ i ∧ pairAt first second payload i = true ∧
      ∀ j, cursor ≤ j → j < i → pairAt first second payload j = false := by
  unfold findPair
  rw [List.find?_range_eq_some]
  constructor
  · rintro ⟨hp, -, hmin⟩
    obtain ⟨hle, hpair⟩ := Bool.and_eq_true_iff.mp hp
    refine ⟨of_decide_eq_true hle, hpair, fun j hj hlt => ?_⟩
    have hnot := hmin j hlt
    simpa [hj] using hnot
  · rintro ⟨hle, hpair, hmin⟩
    refine ⟨by simp [hle, hpair], ?_, fun j hlt => ?_⟩
    · unfold pairAt at hpair
      grind
    · by_cases hj : cursor ≤ j
      · simp [hmin j hj hlt]
      · simp [hj]

theorem findPair_eq_none {first second : UInt8} : findPair first second payload cursor = none ↔
    ∀ j, cursor ≤ j → pairAt first second payload j = false := by
  unfold findPair
  rw [List.find?_range_eq_none]
  constructor
  · intro h j hj
    by_cases hlt : j < payload.length
    · simpa [hj] using h j hlt
    · unfold pairAt
      grind
  · intro h j _
    by_cases hj : cursor ≤ j
    · simp [h j hj]
    · simp [hj]

/-- The first marker from the cursor on. -/
theorem min_markers {marker : Nat} :
    ((findPair 0x1D 0x56 payload cursor).toList ++
        (findPair 0x1B 0x6D payload cursor).toList).min? = some marker ↔
      cursor ≤ marker ∧ (gsPair payload marker = true ∨ escPair payload marker = true) ∧
        ∀ j, cursor ≤ j → j < marker → gsPair payload j = false ∧ escPair payload j = false := by
  unfold gsPair escPair
  cases hgs : findPair 0x1D 0x56 payload cursor with
  | none =>
    rw [findPair_eq_none] at hgs
    cases hesc : findPair 0x1B 0x6D payload cursor with
    | none =>
      rw [findPair_eq_none] at hesc
      simp
      grind
    | some esc =>
      rw [findPair_eq_some] at hesc
      simp
      grind
  | some gs =>
    rw [findPair_eq_some] at hgs
    cases hesc : findPair 0x1B 0x6D payload cursor with
    | none =>
      rw [findPair_eq_none] at hesc
      simp
      grind
    | some esc =>
      rw [findPair_eq_some] at hesc
      simp [List.min?_cons]
      grind

variable {cutEnd' : Nat}

theorem cutEnd_of_no_pair (hgs : gsPair payload i = false) (hesc : escPair payload i = false) :
    cutEnd payload i = none := by
  simp [cutEnd, hgs, hesc]

/-- Behind the first byte of a marker no other one starts. -/
theorem cutEnd_succ_of_gsPair (h : gsPair payload i = true) : cutEnd payload (i + 1) = none := by
  refine cutEnd_of_no_pair ?_ ?_
  · unfold gsPair pairAt at *
    grind
  · unfold gsPair escPair pairAt at *
    grind

theorem cutEnd_bounds (h : cutEnd payload i = some cutEnd') :
    i + 2 ≤ cutEnd' ∧ cutEnd' ≤ payload.length := by
  unfold cutEnd at h
  split at h
  · next hesc =>
    unfold escPair pairAt at hesc
    grind
  · grind

theorem turn_eq_cut (h : turn payload cursor = .cut cutEnd') : ∃ m, cursor ≤ m ∧
    cutEnd payload m = some cutEnd' ∧
      ∀ j, cursor ≤ j → j < m → gsPair payload j = false ∧ escPair payload j = false := by
  unfold turn at h
  dsimp only at h
  split at h
  · simp at h
  · next marker hmarker =>
    obtain ⟨hle, hpair, hmin⟩ := min_markers.mp hmarker
    refine ⟨marker, hle, ?_, hmin⟩
    unfold cutEnd
    unfold escPair at hpair ⊢
    grind

theorem turn_eq_skip {next : Nat} (h : turn payload cursor = .skip next) : ∃ m, cursor ≤ m ∧
    next = m + 2 ∧ gsPair payload m = true ∧ cutEnd payload m = none ∧
      ∀ j, cursor ≤ j → j < m → cutEnd payload j = none := by
  unfold turn at h
  dsimp only at h
  split at h
  · simp at h
  · next marker hmarker =>
    obtain ⟨hle, hpair, hmin⟩ := min_markers.mp hmarker
    refine ⟨marker, hle, ?_, ?_, ?_, fun j hj hlt =>
      cutEnd_of_no_pair (hmin j hj hlt).1 (hmin j hj hlt).2⟩
    · grind
    · unfold escPair at hpair
      grind
    · unfold cutEnd
      unfold escPair at hpair ⊢
      grind

theorem turn_eq_stop (h : turn payload cursor = .stop) :
    ∀ j, cursor ≤ j → cutEnd payload j = none := by
  unfold turn at h
  dsimp only at h
  split at h
  · next hnone =>
    intro j hj
    simp only [List.min?_eq_none_iff, List.append_eq_nil_iff, Option.toList_eq_nil_iff,
      findPair_eq_none] at hnone
    exact cutEnd_of_no_pair (hnone.1 j hj) (hnone.2 j hj)
  · next marker hmarker =>
    obtain ⟨hle, hpair, hmin⟩ := min_markers.mp hmarker
    intro j hj
    by_cases hlt : j < marker
    · exact cutEnd_of_no_pair (hmin j hj hlt).1 (hmin j hj hlt).2
    · cases hcut : cutEnd payload j with
      | none => rfl
      | some e =>
        have hbounds := cutEnd_bounds hcut
        have hesc : pairAt 0x1B 0x6D payload marker = false := by grind
        have hend : payload.length ≤ marker + 2 := by grind
        obtain rfl : j = marker := by omega
        unfold cutEnd escPair at hcut
        grind

/-! ## The first cut of a ticket -/

theorem firstCut_eq_some : firstCut payload start = some cutEnd' ↔ ∃ m, start ≤ m ∧
    cutEnd payload m = some cutEnd' ∧ overlooked payload start m = false ∧
      ∀ j, start ≤ j → j < m → cutEnd payload j = none := by
  unfold firstCut
  rw [Option.bind_eq_some_iff]
  constructor
  · rintro ⟨m, hfind, hcut⟩
    rw [List.find?_range_eq_some] at hfind
    obtain ⟨hp, -, hmin⟩ := hfind
    have hbounds := cutEnd_bounds hcut
    refine ⟨m, by simp at hp; exact hp.1, hcut, by simp at hp; exact hp.2.2, fun j hj hlt => ?_⟩
    have hnot := hmin j hlt
    have hread : overlooked payload start j = false := by
      simp [overlooked]
      omega
    simpa [hj, hread] using hnot
  · rintro ⟨m, hle, hcut, hread, hmin⟩
    refine ⟨m, ?_, hcut⟩
    have hbounds := cutEnd_bounds hcut
    rw [List.find?_range_eq_some]
    refine ⟨by simp [hle, hcut, hread], List.mem_range.mpr (by omega), fun j hlt => ?_⟩
    by_cases hj : start ≤ j
    · simp [hmin j hj hlt]
    · simp [hj]

theorem firstCut_eq_none (h : ∀ m, start ≤ m → cutEnd payload m = none ∨
    overlooked payload start m = true) : firstCut payload start = none := by
  cases hcut : firstCut payload start with
  | none => rfl
  | some e =>
    obtain ⟨m, hle, hsome, hread, -⟩ := firstCut_eq_some.mp hcut
    obtain hnone | hover := h m hle
    · simp [hnone] at hsome
    · simp [hover] at hread

/-- The loop looks for the cut of the ticket from its start on. -/
structure Searching (payload : Bytes) (start cursor : Nat) : Prop where
  le : start ≤ cursor
  passed : ∀ j, start ≤ j → j < cursor → cutEnd payload j = none
  place : cursor = start ∨ (start + 2 ≤ cursor ∧ gsPair payload (cursor - 2) = true)

theorem searching_start : Searching payload start start :=
  ⟨Nat.le_refl _, fun _ h k => absurd k (by omega), Or.inl rfl⟩

theorem Searching.skip {next : Nat} (h : Searching payload start cursor)
    (hturn : turn payload cursor = .skip next) : Searching payload start next ∧ cursor < next := by
  obtain ⟨m, hle, rfl, hgs, hnone, hmin⟩ := turn_eq_skip hturn
  have hstart := h.le
  refine ⟨⟨by omega, fun j hj hlt => ?_, Or.inr ⟨by omega, hgs⟩⟩, by omega⟩
  by_cases hpassed : j < cursor
  · exact h.passed j hj hpassed
  · obtain hbefore | rfl | rfl : j < m ∨ j = m ∨ j = m + 1 := by omega
    · exact hmin j (by omega) hbefore
    · exact hnone
    · exact cutEnd_succ_of_gsPair hgs

theorem Searching.cut (h : Searching payload start cursor) (hroom : cursor + 2 < payload.length)
    (hturn : turn payload cursor = .cut cutEnd') : firstCut payload start = some cutEnd' := by
  obtain ⟨m, hle, hcut, hmin⟩ := turn_eq_cut hturn
  have hstart := h.le
  refine firstCut_eq_some.mpr ⟨m, by omega, hcut, ?_, fun j hj hlt => ?_⟩
  · by_contra hover
    simp only [overlooked, Bool.not_eq_false, Bool.and_eq_true, beq_iff_eq, Bool.or_eq_true,
      decide_eq_true_eq] at hover
    obtain ⟨hend, rfl | ⟨hbehind, hgs⟩⟩ := hover
    · omega
    · -- no turn can end between the GS V and the ESC m behind it
      obtain hlt | rfl : cursor ≤ m - 2 ∨ cursor = m - 1 := by omega
      · exact absurd (hmin (m - 2) hlt (by omega)).1 (by simp [hgs])
      · obtain heq | ⟨hfar, hplace⟩ := h.place
        · omega
        · unfold gsPair pairAt at hgs hplace
          grind
  · by_cases hpassed : j < cursor
    · exact h.passed j hj hpassed
    · exact cutEnd_of_no_pair (hmin j (by omega) hlt).1 (hmin j (by omega) hlt).2

theorem Searching.stop (h : Searching payload start cursor)
    (hturn : turn payload cursor = .stop) : firstCut payload start = none := by
  refine firstCut_eq_none fun m hm => Or.inl ?_
  by_cases hpassed : m < cursor
  · exact h.passed m hm hpassed
  · exact turn_eq_stop hturn m (by omega)

/-- At the end of the payload only an overlooked ESC m is left. -/
theorem Searching.done (h : Searching payload start cursor)
    (hend : ¬ cursor + 2 < payload.length) : firstCut payload start = none := by
  refine firstCut_eq_none fun m hm => ?_
  by_cases hpassed : m < cursor
  · exact Or.inl (h.passed m hm hpassed)
  · cases hcut : cutEnd payload m with
    | none => exact Or.inl rfl
    | some e =>
      have hbounds := cutEnd_bounds hcut
      obtain rfl : m = cursor := by omega
      refine Or.inr ?_
      simp only [overlooked, Bool.and_eq_true, beq_iff_eq, Bool.or_eq_true, decide_eq_true_eq]
      exact ⟨by omega, h.place⟩

/-! ## The loop -/

theorem le_segmentEnd (h : cursor ≤ payload.length) : cursor ≤ segmentEnd payload cursor := by
  unfold segmentEnd
  cases hfind : findPair 0x1B 0x40 payload cursor with
  | none => exact h
  | some i => exact (findPair_eq_some.mp hfind).1

/-- The segment of a ticket with a cut. -/
def ticket (payload : Bytes) (start cutEnd : Nat) : Segment :=
  ⟨slice payload start (segmentEnd payload cutEnd), start, true⟩

variable {fuel : Nat} {result : List Segment}

/-- From the start of a ticket the loop comes to its first cut and goes on with
the next ticket, or it ends. -/
theorem segmentsFrom_search (hs : Searching payload start cursor)
    (hfuel : payload.length ≤ cursor + fuel) (hroom : result.length < maxDocuments - 1) :
    (firstCut payload start = none ∧
        segmentsFrom payload fuel result start cursor = (result, start)) ∨
      ∃ e fuel', firstCut payload start = some e ∧ fuel' < fuel ∧
        payload.length ≤ segmentEnd payload e + fuel' ∧
        segmentsFrom payload fuel result start cursor =
          segmentsFrom payload fuel' (result ++ [ticket payload start e])
            (segmentEnd payload e) (segmentEnd payload e) := by
  induction fuel generalizing cursor with
  | zero => exact Or.inl ⟨hs.done (by omega), rfl⟩
  | succ fuel ih =>
    rw [segmentsFrom]
    by_cases hin : cursor + 2 < payload.length
    · rw [if_pos ⟨hin, hroom⟩]
      cases hturn : turn payload cursor with
      | stop => exact Or.inl ⟨hs.stop hturn, rfl⟩
      | skip next =>
        obtain ⟨hnext, hlt⟩ := hs.skip hturn
        obtain hdone | ⟨e, fuel', hcut, hless, hrest, heq⟩ := ih hnext (by omega)
        · exact Or.inl hdone
        · exact Or.inr ⟨e, fuel', hcut, by omega, hrest, heq⟩
      | cut e =>
        have hcut := hs.cut hin hturn
        obtain ⟨m, hle, hsome, -⟩ := turn_eq_cut hturn
        have hbounds := cutEnd_bounds hsome
        have hend := le_segmentEnd hbounds.2
        exact Or.inr ⟨e, fuel, hcut, by omega, by omega, rfl⟩
    · rw [if_neg (fun h => hin h.1)]
      exact Or.inl ⟨hs.done hin, rfl⟩

/-- The segments so far are the first tickets, and the next one starts here. -/
structure Split (payload : Bytes) (result : List Segment) (start : Nat) : Prop where
  next : ticketStart payload result.length = some start
  tickets : ∀ i segment, result[i]? = some segment → ∃ a e, ticketStart payload i = some a ∧
    firstCut payload a = some e ∧ segment = ticket payload a e

theorem Split.append {e : Nat} (h : Split payload result start)
    (hroom : result.length < maxDocuments - 1) (hcut : firstCut payload start = some e) :
    Split payload (result ++ [ticket payload start e]) (segmentEnd payload e) := by
  refine ⟨?_, fun i segment hi => ?_⟩
  · rw [List.length_append, List.length_singleton, ticketStart, if_pos (by omega), h.next]
    simp [hcut]
  · rw [List.getElem?_append] at hi
    split at hi
    · exact h.tickets i segment hi
    · next hge =>
      obtain rfl : i = result.length := by
        by_contra hne
        rw [List.getElem?_eq_none (by simp; omega)] at hi
        simp at hi
      simp at hi
      exact ⟨start, e, h.next, hcut, hi.symm⟩

/-- The loop ends where no ticket follows. -/
theorem segmentsFrom_split (h : Split payload result start)
    (hfuel : payload.length ≤ start + fuel) (hmax : result.length ≤ maxDocuments - 1) :
    let out := segmentsFrom payload fuel result start start
    Split payload out.1 out.2 ∧ out.1.length ≤ maxDocuments - 1 ∧
      (out.1.length = maxDocuments - 1 ∨ firstCut payload out.2 = none) := by
  induction fuel using Nat.strong_induction_on generalizing result start with
  | _ fuel ih =>
    by_cases hroom : result.length < maxDocuments - 1
    · obtain ⟨hnone, heq⟩ | ⟨e, fuel', hcut, hless, hrest, heq⟩ :=
        segmentsFrom_search searching_start hfuel hroom
      · simp only [heq]
        exact ⟨h, hmax, Or.inr hnone⟩
      · simp only [heq]
        exact ih fuel' hless (h.append hroom hcut) hrest (by simp; omega)
    · have heq : segmentsFrom payload fuel result start start = (result, start) := by
        cases fuel with
        | zero => rfl
        | succ fuel => rw [segmentsFrom, if_neg (fun k => hroom k.2)]
      simp only [heq]
      exact ⟨h, hmax, Or.inl (by omega)⟩

theorem ticketStart_lt {a : Nat} (h : ticketStart payload n = some a) : n + 1 ≤ maxDocuments := by
  cases n with
  | zero => decide
  | succ n =>
    rw [ticketStart] at h
    split at h
    · omega
    · simp at h

/-- Before a ticket every other one has a cut. -/
theorem ticketStart_before {a : Nat} (h : ticketStart payload n = some a) (hlt : i < n) :
    ∃ b e, ticketStart payload i = some b ∧ i + 1 < maxDocuments ∧
      firstCut payload b = some e := by
  induction n generalizing a with
  | zero => omega
  | succ n ih =>
    rw [ticketStart] at h
    split at h
    · next hroom =>
      obtain ⟨b, hb, hmap⟩ := Option.bind_eq_some_iff.mp h
      obtain ⟨e, he, -⟩ := Option.map_eq_some_iff.mp hmap
      obtain hbefore | rfl : i < n ∨ i = n := by omega
      · exact ih hb hbefore
      · exact ⟨b, e, hb, hroom, he⟩
    · simp at h

/-- The bytes from the last ticket on. -/
def remainder (payload : Bytes) (start : Nat) : Segment := ⟨payload.drop start, start, false⟩

/-- No cut follows from here on, or the split has come to its last segment. -/
def Last (payload : Bytes) (n start : Nat) : Prop :=
  n + 1 = maxDocuments ∨ firstCut payload start = none

/-- The cut tickets of the stream, and behind them what is left of it. -/
theorem segments_split (payload : Bytes) : ∃ result start, Split payload result start ∧
    Last payload result.length start ∧ result.length < maxDocuments ∧
      segments payload = result ++
        if start < payload.length ∨ result = [] then [remainder payload start] else [] := by
  have hempty : Split payload [] 0 := ⟨rfl, fun i segment hi => absurd hi (by simp)⟩
  obtain ⟨hsplit, hmax, hend⟩ :=
    segmentsFrom_split hempty (by omega : payload.length ≤ 0 + payload.length) (by decide)
  unfold segments
  generalize segmentsFrom payload payload.length [] 0 0 = out at hsplit hmax hend
  obtain ⟨result, start⟩ := out
  simp only at hsplit hmax hend ⊢
  have hroom : result.length < maxDocuments := by
    unfold maxDocuments at hmax ⊢
    omega
  have hlast : Last payload result.length start := by
    obtain heq | hnone := hend
    · exact Or.inl (by rw [heq]; decide)
    · exact Or.inr hnone
  refine ⟨result, start, hsplit, hlast, hroom, ?_⟩
  split
  · exact List.take_of_length_le (by simpa [Nat.succ_le_iff] using hroom)
  · rw [List.append_nil]
    exact List.take_of_length_le (Nat.le_of_lt hroom)

/-- No ticket comes after the last one. -/
theorem Split.length_ge {a : Nat} (h : Split payload result start)
    (hlast : Last payload result.length start) (ha : ticketStart payload n = some a) :
    n ≤ result.length := by
  by_contra hgt
  obtain ⟨b, e, hb, hroom, he⟩ := ticketStart_before ha (by omega : result.length < n)
  obtain rfl : b = start := Option.some.inj (hb.symm.trans h.next)
  obtain heq | hnone := hlast
  · omega
  · simp [hnone] at he

/-- A ticket with a cut is one of the segments. -/
theorem Split.getElem?_eq {a e : Nat} (h : Split payload result start)
    (hlast : Last payload result.length start) (hroom : n + 1 < maxDocuments)
    (ha : ticketStart payload n = some a) (he : firstCut payload a = some e) :
    result[n]? = some (ticket payload a e) := by
  have hlt : n < result.length := by
    refine lt_of_le_of_ne (h.length_ge hlast ha) fun heq => ?_
    subst heq
    obtain rfl : a = start := Option.some.inj (ha.symm.trans h.next)
    obtain hfull | hnone := hlast
    · omega
    · simp [hnone] at he
  obtain ⟨b, e', hb, he', hseg⟩ := h.tickets n result[n] (List.getElem?_eq_getElem hlt)
  obtain rfl : a = b := Option.some.inj (ha.symm.trans hb)
  obtain rfl : e = e' := Option.some.inj (he.symm.trans he')
  rw [List.getElem?_eq_getElem hlt, hseg]

theorem mem_segments : segment ∈ segments payload ↔
    ∃ n a, ticketStart payload n = some a ∧
      ((∃ e, n + 1 < maxDocuments ∧ firstCut payload a = some e ∧ segment = ticket payload a e) ∨
        (Last payload n a ∧ (a < payload.length ∨ n = 0) ∧ segment = remainder payload a)) := by
  obtain ⟨result, start, hsplit, hlast, hmax, heq⟩ := segments_split payload
  have hmem : segment ∈ segments payload ↔ segment ∈ result ∨
      ((start < payload.length ∨ result.length = 0) ∧ segment = remainder payload start) := by
    rw [heq, List.mem_append, List.length_eq_zero_iff]
    split
    · next hrest => simp [hrest]
    · next hrest => simp [hrest]
  rw [hmem]
  constructor
  · rintro (hm | ⟨hrest, rfl⟩)
    · obtain ⟨i, hi⟩ := List.mem_iff_getElem?.mp hm
      obtain ⟨a, e, ha, he, rfl⟩ := hsplit.tickets i segment hi
      have hlt : i < result.length := (List.getElem?_eq_some_iff.mp hi).1
      have hfit := ticketStart_lt hsplit.next
      exact ⟨i, a, ha, Or.inl ⟨e, by omega, he, rfl⟩⟩
    · exact ⟨result.length, start, hsplit.next, Or.inr ⟨hlast, hrest, rfl⟩⟩
  · rintro ⟨n, a, ha, ⟨e, hroom, he, rfl⟩ | ⟨hl, hrest, rfl⟩⟩
    · exact Or.inl (List.mem_of_getElem? (hsplit.getElem?_eq hlast hroom ha he))
    · have heq : n = result.length := by
        by_contra hne
        have hle := hsplit.length_ge hlast ha
        obtain ⟨b, e, hb, he, -⟩ :=
          hsplit.tickets n _ (List.getElem?_eq_getElem (by omega : n < result.length))
        obtain rfl : a = b := Option.some.inj (ha.symm.trans hb)
        obtain hfull | hnone := hl
        · omega
        · simp [hnone] at he
      subst heq
      obtain rfl : a = start := Option.some.inj (ha.symm.trans hsplit.next)
      exact Or.inr ⟨hrest, rfl⟩

/-! ## Agreement with the scanner -/

variable {encoding : Encoding}

/-- A segment within the limits of the text is marked as cut exactly when its
own scan shows a cut. -/
def MarksCuts (payload : Bytes) (encoding : Encoding) : Prop :=
  ∀ segment ∈ segments payload,
    ¬ (extraction segment.payload segment.baseOffset encoding).Limited →
      (segment.cutObserved = true ↔
        (extraction segment.payload segment.baseOffset encoding).ShowsCut)

/-- A place is not strictly inside the data of a command of the scan. -/
def OutsideData (payload : Bytes) (place : Nat) : Prop :=
  ∀ scanned ∈ commands payload, ¬ (scanned.dataStart < place ∧ place < scanned.dataEnd)

def SegmentsAgree (payload : Bytes) (encoding : Encoding) : Prop :=
  (∀ segment ∈ segments payload, OutsideData payload segment.baseOffset) ∧
    MarksCuts payload encoding

/-- Of every ticket: the reset it starts with is no data, its scan reads a cut
where it holds one as a byte pair, and behind the last ticket no cut is read. -/
structure TicketAgrees (payload : Bytes) (encoding : Encoding) (n start : Nat) : Prop where
  outside : OutsideData payload start
  reads : ∀ e, n + 1 < maxDocuments → firstCut payload start = some e →
    ¬ (extraction (ticket payload start e).payload start encoding).Limited →
      ReadsCut (ticket payload start e).payload
  rest : Last payload n start →
    ¬ (extraction (payload.drop start) start encoding).Limited → ¬ ReadsCut (payload.drop start)

/-- The data of a command ends within the payload. -/
theorem outsideData_end (h : payload.length ≤ start) : OutsideData payload start := by
  intro scanned hm hinside
  obtain ⟨-, hlt, hread⟩ := mem_commands.mp hm
  have hne : payload.drop scanned.offset ≠ [] := by simpa using hlt
  have hsize := size_le hne
  rw [← hread, List.length_drop] at hsize
  have hdata := hinside.2
  unfold Scanned.dataEnd at hdata
  simp only at hsize
  omega

theorem not_readsCut_nil : ¬ ReadsCut [] := by
  rintro ⟨i, -, hcut⟩
  simp [startsCut] at hcut

/-- The split agrees with the scan of the stream and of each segment exactly
when every ticket does. -/
theorem segmentsAgree_iff : SegmentsAgree payload encoding ↔
    ∀ n start, ticketStart payload n = some start → TicketAgrees payload encoding n start := by
  constructor
  · rintro ⟨houtside, hmarks⟩ n start hstart
    refine ⟨?_, fun e hroom hcut hlimit => ?_, fun hlast hlimit => ?_⟩
    · by_cases hlast : Last payload n start
      · by_cases hlt : start < payload.length
        · exact houtside _ (mem_segments.mpr ⟨n, start, hstart, Or.inr ⟨hlast, Or.inl hlt, rfl⟩⟩)
        · exact outsideData_end (by omega)
      · obtain ⟨e, he⟩ := Option.ne_none_iff_exists'.mp fun hnone => hlast (Or.inr hnone)
        have hroom : n + 1 < maxDocuments :=
          lt_of_le_of_ne (ticketStart_lt hstart) fun hfull => hlast (Or.inl hfull)
        exact houtside _ (mem_segments.mpr ⟨n, start, hstart, Or.inl ⟨e, hroom, he, rfl⟩⟩)
    · have hm := mem_segments.mpr ⟨n, start, hstart, Or.inl ⟨e, hroom, hcut, rfl⟩⟩
      exact (extraction_showsCut hlimit).mp ((hmarks _ hm hlimit).mp rfl)
    · intro hreads
      by_cases hlt : start < payload.length
      · have hm := mem_segments.mpr ⟨n, start, hstart, Or.inr ⟨hlast, Or.inl hlt, rfl⟩⟩
        have hmark := (hmarks _ hm hlimit).mpr ((extraction_showsCut hlimit).mpr hreads)
        exact absurd hmark Bool.false_ne_true
      · rw [List.drop_eq_nil_of_le (by omega)] at hreads
        exact not_readsCut_nil hreads
  · intro h
    refine ⟨fun segment hm => ?_, fun segment hm hlimit => ?_⟩
    · obtain ⟨n, a, ha, ⟨e, -, -, rfl⟩ | ⟨-, -, rfl⟩⟩ := mem_segments.mp hm
      · exact (h n a ha).outside
      · exact (h n a ha).outside
    · obtain ⟨n, a, ha, ⟨e, hroom, he, rfl⟩ | ⟨hlast, -, rfl⟩⟩ := mem_segments.mp hm
      · exact iff_of_true rfl
          ((extraction_showsCut hlimit).mpr ((h n a ha).reads e hroom he hlimit))
      · exact iff_of_false Bool.false_ne_true fun hshows =>
          (h n a ha).rest hlast hlimit ((extraction_showsCut hlimit).mp hshows)

/-- A bit image whose data hold GS V 0 and ESC @. -/
def imageOfCut : Bytes := [0x1B, 0x2A, 0, 6, 0, 0x1D, 0x56, 0, 0x1B, 0x40, 0x41]

/-- The image is split in the middle of its data. -/
theorem imageOfCut_split : ¬ SegmentsAgree imageOfCut .cp858 := by
  intro h
  have hm : (⟨[0x1B, 0x40, 0x41], 8, false⟩ : Segment) ∈ segments imageOfCut := by
    decide +kernel
  have himage : (⟨0, .bitImage 6, 11⟩ : Scanned) ∈ commands imageOfCut := by
    decide +kernel
  exact h.1 _ hm _ himage (by decide)

end RetailPrintGuard.Parser.EscposSegments
