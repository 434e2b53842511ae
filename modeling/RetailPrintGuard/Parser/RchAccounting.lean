import Mathlib.Data.List.TakeWhile
import RetailPrintGuard.Parser.RchFraming

/-! # The accounting of an RCH stream

From one turn of the scanner to the next the bytes are an ACK, a block with its
trailer, or something the framing reports. -/
namespace RetailPrintGuard.Parser.RchAccounting
open RetailPrintGuard.Common.Formats
open RetailPrintGuard.Parser.RchFraming

/-- A block with a trailer: two bytes of block check and ETX. -/
structure Envelope extends Block where
  bccHigh : UInt8
  bccLow : UInt8

def Envelope.encode (envelope : Envelope) : Bytes :=
  envelope.toBlock.encode ++ [envelope.bccHigh, envelope.bccLow, etx]

/-- The block check its trailer tells. -/
def Envelope.expected (envelope : Envelope) : Option Int :=
  hexValue envelope.bccHigh envelope.bccLow

def Envelope.valid (envelope : Envelope) : Bool :=
  envelope.expected == some ((bcc envelope.toBlock.encode).toNat : Int)

/-- Why an STX byte begins no frame. -/
inductive Rejection where
  | malformedHeader
  | missingEtx

/-- What the stream ends in. -/
inductive Unfinished where
  | header
  | frame

/-- The bytes from one turn of the scanner to the next. -/
inductive Stretch where
  | ack
  | envelope (envelope : Envelope)
  | noise (byte : UInt8) (more : Bytes)
      (outside : ∀ b ∈ byte :: more, b ≠ stx ∧ b ≠ RchFraming.ack)
  | stray (rejection : Rejection)
  | unfinished (part : Unfinished) (more : Bytes)

namespace Stretch

def bytes : Stretch → Bytes
  | ack => [RchFraming.ack]
  | envelope e => e.encode
  | noise byte more _ => byte :: more
  | stray _ => [stx]
  | unfinished _ more => stx :: more

def isAck : Stretch → Bool
  | ack => true
  | _ => false

/-- What the framing reports of the bytes at an offset. -/
def issue (offset : Nat) : Stretch → Option String
  | ack => none
  | envelope e =>
    match e.expected with
    | none => some s!"malformed_trailer:{offset}"
    | some _ => if e.valid then none else some s!"bcc_mismatch:{offset}"
  | noise byte more _ => some s!"unframed_bytes:{offset}:{(byte :: more).length}"
  | stray .malformedHeader => some s!"malformed_header:{offset}"
  | stray .missingEtx => some s!"missing_etx:{offset}"
  | unfinished .header more => some s!"truncated_header:{offset}:{(stx :: more).length}"
  | unfinished .frame more => some s!"truncated_frame:{offset}:{(stx :: more).length}"

/-- The frame the bytes are read as. -/
def frame (frameId offset : Nat) : Stretch → Option Frame
  | envelope e =>
    e.expected.map fun _ => e.toBlock.received e.bccHigh e.bccLow e.valid frameId offset
  | _ => none

/-- Behind the rest of a frame that is cut off nothing is read. -/
def ends : Stretch → Bool
  | unfinished _ _ => true
  | _ => false

end Stretch

/-- The bytes of all stretches. -/
def joined (stretches : List Stretch) : Bytes := stretches.flatMap Stretch.bytes

/-- The stretches at their offsets. -/
def place : Nat → List Stretch → List (Nat × Stretch)
  | _, [] => []
  | offset, stretch :: stretches =>
    (offset, stretch) :: place (offset + stretch.bytes.length) stretches

/-- The frames among the stretches, numbered and at their offsets. -/
def framesFrom : Nat → Nat → List Stretch → List Frame
  | _, _, [] => []
  | frameId, offset, stretch :: stretches =>
    match stretch.frame frameId offset with
    | none => framesFrom frameId (offset + stretch.bytes.length) stretches
    | some frame => frame :: framesFrom (frameId + 1) (offset + stretch.bytes.length) stretches

def issuesFrom (offset : Nat) (stretches : List Stretch) : List String :=
  (place offset stretches).filterMap fun (offset, stretch) => stretch.issue offset

/-! ## One turn -/

/-- What a turn over these bytes does. -/
def turn (stream : FramedStream) (cursor : Nat) (stretch : Stretch) : FramedStream :=
  match stretch with
  | .ack => { stream with ackCount := stream.ackCount + 1 }
  | .envelope e =>
    match e.expected with
    | none => stream.issue s!"malformed_trailer:{cursor}"
    | some expected => stream.accept cursor e.encode e.data.length expected
  | other => (other.issue cursor).elim stream stream.issue

variable {cursor offset frameId : Nat} {stream : FramedStream} {stretch : Stretch}
variable {stretches : List Stretch} {payload : Bytes}

theorem bytes_ne_nil (stretch : Stretch) : stretch.bytes ≠ [] := by
  cases stretch with
  | envelope e => simp [Stretch.bytes, Envelope.encode]
  | ack | noise | stray | unfinished => exact List.cons_ne_nil _ _

theorem length_bytes_pos (stretch : Stretch) : 0 < stretch.bytes.length :=
  List.length_pos_iff.mpr (bytes_ne_nil stretch)

theorem length_envelope (e : Envelope) : e.encode.length = e.data.length + 11 := by
  rw [Envelope.encode, List.length_append, length_block]
  rfl

/-- The scanner reads an ACK and a whole envelope wherever they stand. -/
theorem scanStep_ack (tail : Bytes) : scanStep cursor (Stretch.ack.bytes ++ tail) stream =
    (some Stretch.ack.bytes.length, turn stream cursor .ack) := rfl

theorem scanStep_envelope (e : Envelope) (tail : Bytes) :
    scanStep cursor (e.encode ++ tail) stream =
      (some e.encode.length, turn stream cursor (.envelope e)) := by
  have hsplit : e.encode ++ tail =
      e.toBlock.encode ++ e.bccHigh :: e.bccLow :: etx :: tail := by simp [Envelope.encode]
  rw [hsplit, scanStep_block, length_envelope]
  simp only [turn, Envelope.expected]
  cases hexValue e.bccHigh e.bccLow <;> rfl

/-! ### The block behind an STX byte -/

theorem digit_cases {byte : UInt8} (h : isDigit byte = true) :
    ∃ n < 10, byte = UInt8.ofNat (48 + n) := by
  simp only [isDigit, Bool.and_eq_true, decide_eq_true_eq, UInt8.le_iff_toNat_le] at h
  have hlow : 48 ≤ byte.toNat := h.1
  have hhigh : byte.toNat ≤ 57 := h.2
  refine ⟨byte.toNat - 48, by omega, ?_⟩
  rw [Nat.add_sub_cancel' hlow, UInt8.ofNat_toNat]

/-- Three digits are the number they tell, written with three digits. -/
theorem lengthDigits_decimalValue {digits : Bytes} (hlength : digits.length = 3)
    (hdigits : digits.all isDigit = true) :
    lengthDigits (decimalValue digits) = digits ∧ decimalValue digits ≤ 999 := by
  match digits, hlength with
  | [a, b, c], _ =>
    simp only [List.all_cons, List.all_nil, Bool.and_true, Bool.and_eq_true] at hdigits
    obtain ⟨x, hx, rfl⟩ := digit_cases hdigits.1
    obtain ⟨y, hy, rfl⟩ := digit_cases hdigits.2.1
    obtain ⟨z, hz, rfl⟩ := digit_cases hdigits.2.2
    have hvalue : decimalValue [UInt8.ofNat (48 + x), UInt8.ofNat (48 + y),
        UInt8.ofNat (48 + z)] = 100 * x + 10 * y + z := by
      simp only [decimalValue, List.foldl_cons, List.foldl_nil]
      rw [toNat_digit hx, toNat_digit hy, toNat_digit hz]
      omega
    rw [hvalue, lengthDigits]
    refine ⟨?_, by omega⟩
    rw [show (100 * x + 10 * y + z) / 100 = x by omega,
      show (100 * x + 10 * y + z) / 10 % 10 = y by omega,
      show (100 * x + 10 * y + z) % 10 = z by omega]

/-- Enough bytes behind a whole header, with ETX where the length field says,
are an envelope. -/
theorem exists_envelope {rest : Bytes} (hfirst : rest.getD 0 0 = stx)
    (haddress : ((rest.drop 1).take 2).all isDigit = true)
    (hdigits : ((rest.drop 3).take 3).all isDigit = true)
    (hlong : decimalValue ((rest.drop 3).take 3) + 11 ≤ rest.length)
    (hetx : rest.getD (decimalValue ((rest.drop 3).take 3) + 11 - 1) 0 = etx) :
    ∃ (e : Envelope) (tail : Bytes), rest = e.encode ++ tail := by
  generalize hn : decimalValue ((rest.drop 3).take 3) = n at hlong hetx
  match rest, hlong with
  | b0 :: b1 :: b2 :: b3 :: b4 :: b5 :: b6 :: more, hlong =>
    simp only [List.drop_succ_cons, List.drop_zero, List.take_succ_cons, List.take_zero]
      at haddress hdigits hn
    obtain ⟨hwritten, hmax⟩ := @lengthDigits_decimalValue [b3, b4, b5] rfl hdigits
    rw [hn] at hwritten hmax
    simp only [List.all_cons, List.all_nil, Bool.and_true, Bool.and_eq_true] at haddress
    obtain rfl : b0 = stx := hfirst
    simp only [List.length_cons] at hlong
    have hdata : (more.take n).length = n := by
      rw [List.length_take]
      omega
    match htrailer : more.drop n, hetx with
    | sequence :: high :: low :: last :: tail, hetx =>
      obtain rfl : last = etx := by
        have hat : more.getD (n + 3) 0 = last := by
          have hget : (more.drop n).getD 3 0 = more.getD (n + 3) 0 := by
            simp [List.getD_eq_getElem?_getD, List.getElem?_drop]
          rw [← hget, htrailer]
          rfl
        rw [← hat, ← hetx]
        rfl
      let e : Envelope :=
        { addressHigh := b1, addressLow := b2, frameClass := b6, data := more.take n, sequence
          address := haddress, length := hdata.trans_le hmax, bccHigh := high, bccLow := low }
      refine ⟨e, tail, ?_⟩
      have hmore : more = more.take n ++ sequence :: high :: low :: etx :: tail := by
        rw [← htrailer, List.take_append_drop]
      simp only [e, Envelope.encode, Block.encode, hdata, hwritten, List.cons_append,
        List.nil_append, List.append_assoc]
      rw [← hmore]
    | [], _ | [_], _ | [_, _], _ | [_, _, _], _ =>
      have hcount := congrArg List.length htrailer
      rw [List.length_drop] at hcount
      simp at hcount
      omega

/-! ### Every turn reads a stretch -/

/-- A turn at these bytes is one over the stretch, whatever came before. -/
structure Reads (rest : Bytes) (stretch : Stretch) (tail : Bytes) : Prop where
  split : rest = stretch.bytes ++ tail
  last : stretch.ends = true → tail = []
  step : ∀ cursor stream, scanStep cursor rest stream =
    (if stretch.ends then none else some stretch.bytes.length, turn stream cursor stretch)

theorem reads_noise {byte : UInt8} {rest : Bytes} (hack : byte ≠ RchFraming.ack) (hstx : byte ≠ stx) :
    ∃ stretch tail, Reads (byte :: rest) stretch tail := by
  let outside : UInt8 → Bool := fun byte => byte != stx && byte != RchFraming.ack
  have hnoise : ∀ b ∈ byte :: rest.takeWhile outside,
      b ≠ stx ∧ b ≠ RchFraming.ack := by
    intro b hb
    obtain rfl | hb := List.mem_cons.mp hb
    · exact ⟨hstx, hack⟩
    · have hout := List.mem_takeWhile_imp hb
      simpa [outside] using hout
  refine ⟨.noise byte (rest.takeWhile outside) hnoise, rest.dropWhile outside, ?_, ?_, ?_⟩
  · exact congrArg (byte :: ·) List.takeWhile_append_dropWhile.symm
  · exact fun h => absurd h Bool.false_ne_true
  · intro cursor stream
    simp only [scanStep, List.getD_cons_zero, beq_eq_false_iff_ne.mpr hack,
      bne_iff_ne.mpr hstx, List.drop_succ_cons, List.drop_zero, if_true]
    rw [if_neg Bool.false_ne_true]
    simp only [Stretch.ends, Stretch.bytes, turn, Stretch.issue, List.length_cons,
      Option.elim_some, Nat.add_comm 1]
    rfl

theorem reads_block {rest : Bytes} : ∃ stretch tail, Reads (stx :: rest) stretch tail := by
  -- what the turn says where the bytes are no envelope
  have hstep : ∀ cursor stream, scanStep cursor (stx :: rest) stream =
      if (stx :: rest).length < 6 then
        (none, stream.issue s!"truncated_header:{cursor}:{(stx :: rest).length}")
      else if !(((stx :: rest).drop 1).take 2).all isDigit ||
          !(((stx :: rest).drop 3).take 3).all isDigit then
        (some 1, stream.issue s!"malformed_header:{cursor}")
      else if (stx :: rest).length < decimalValue (((stx :: rest).drop 3).take 3) + 11 then
        (none, stream.issue s!"truncated_frame:{cursor}:{(stx :: rest).length}")
      else if (stx :: rest).getD
          (decimalValue (((stx :: rest).drop 3).take 3) + 11 - 1) 0 != etx then
        (some 1, stream.issue s!"missing_etx:{cursor}")
      else scanStep cursor (stx :: rest) stream := by
    intro cursor stream
    rw [scanStep]
    dsimp only
    have hack : ¬ ((stx :: rest).getD 0 0 == RchFraming.ack) = true := by
      rw [List.getD_cons_zero]
      decide
    rw [if_neg hack, if_neg (by simp : ¬ ((stx :: rest).getD 0 0 != stx) = true)]
    grind
  by_cases hheader : (stx :: rest).length < 6
  · refine ⟨.unfinished .header rest, [], (List.append_nil _).symm, fun _ => rfl, ?_⟩
    intro cursor stream
    rw [hstep, if_pos hheader]
    rfl
  by_cases hdigits : (!(((stx :: rest).drop 1).take 2).all isDigit ||
      !(((stx :: rest).drop 3).take 3).all isDigit) = true
  · refine ⟨.stray .malformedHeader, rest, rfl, fun h => absurd h Bool.false_ne_true, ?_⟩
    intro cursor stream
    rw [hstep, if_neg hheader, if_pos hdigits]
    rfl
  by_cases hlong : (stx :: rest).length < decimalValue (((stx :: rest).drop 3).take 3) + 11
  · refine ⟨.unfinished .frame rest, [], (List.append_nil _).symm, fun _ => rfl, ?_⟩
    intro cursor stream
    rw [hstep, if_neg hheader, if_neg hdigits, if_pos hlong]
    rfl
  by_cases hetx : ((stx :: rest).getD
      (decimalValue (((stx :: rest).drop 3).take 3) + 11 - 1) 0 != etx) = true
  · refine ⟨.stray .missingEtx, rest, rfl, fun h => absurd h Bool.false_ne_true, ?_⟩
    intro cursor stream
    rw [hstep, if_neg hheader, if_neg hdigits, if_neg hlong, if_pos hetx]
    rfl
  simp only [Bool.or_eq_true, Bool.not_eq_true', not_or, Bool.not_eq_false] at hdigits
  obtain ⟨e, tail, heq⟩ := @exists_envelope (stx :: rest) rfl hdigits.1 hdigits.2
    (by omega) (by simpa using hetx)
  refine ⟨.envelope e, tail, heq, fun h => absurd h Bool.false_ne_true, fun cursor stream => ?_⟩
  rw [heq]
  exact scanStep_envelope e tail

theorem exists_reads {rest : Bytes} (hne : rest ≠ []) :
    ∃ stretch tail, Reads rest stretch tail := by
  match rest, hne with
  | byte :: rest, _ =>
    by_cases hack : byte = RchFraming.ack
    · subst hack
      exact ⟨.ack, rest, rfl, fun h => absurd h Bool.false_ne_true, fun _ _ => scanStep_ack rest⟩
    · by_cases hstx : byte = stx
      · subst hstx
        exact reads_block
      · exact reads_noise hack hstx

/-! ## The whole stream -/

/-- The turns over stretches that stand one behind the other. -/
def turns : FramedStream → Nat → List Stretch → FramedStream
  | stream, _, [] => stream
  | stream, cursor, stretch :: stretches =>
    turns (turn stream cursor stretch) (cursor + stretch.bytes.length) stretches

theorem scan_reads {rest tail : Bytes} (h : Reads rest stretch tail) :
    scan rest cursor 0 stream = if stretch.ends then turn stream cursor stretch
      else scan tail (cursor + stretch.bytes.length) 0 (turn stream cursor stretch) := by
  have hstep := h.step cursor stream
  split
  · next hends =>
    rw [if_pos hends] at hstep
    cases rest with
    | nil => exact absurd (List.append_eq_nil_iff.mp h.split.symm).1 (bytes_ne_nil stretch)
    | cons byte rest => rw [scan, hstep]
  · next hends =>
    rw [if_neg hends, h.split] at hstep
    rw [h.split, scan_of_step (bytes_ne_nil stretch) hstep]

/-- Every stream is a row of stretches, and the scan goes over them in turn. -/
theorem exists_stretches (payload : Bytes) : ∃ stretches, payload = joined stretches ∧
    ∀ cursor stream, scan payload cursor 0 stream = turns stream cursor stretches := by
  induction hn : payload.length using Nat.strong_induction_on generalizing payload with
  | _ n ih =>
    by_cases hempty : payload = []
    · exact ⟨[], hempty, fun cursor stream => by rw [hempty]; rfl⟩
    · obtain ⟨stretch, tail, hreads⟩ := exists_reads hempty
      have hlength : stretch.bytes.length + tail.length = n := by
        rw [← hn, hreads.split, List.length_append]
      have hpos := length_bytes_pos stretch
      obtain ⟨stretches, hsplit, hscan⟩ := ih tail.length (by omega) tail rfl
      by_cases hends : stretch.ends = true
      · refine ⟨[stretch], ?_, fun cursor stream => ?_⟩
        · rw [hreads.split, hreads.last hends]
          simp [joined]
        · rw [scan_reads hreads, if_pos hends]
          rfl
      · refine ⟨stretch :: stretches, ?_, fun cursor stream => ?_⟩
        · rw [hreads.split, hsplit]
          rfl
        · rw [scan_reads hreads, if_neg hends, hscan]
          rfl

/-! ## The limits -/

def Stretch.isFrame (stretch : Stretch) : Bool := (stretch.frame 0 0).isSome

theorem isSome_frame : (stretch.frame frameId offset).isSome = stretch.isFrame := by
  cases stretch with
  | envelope e => simp [Stretch.isFrame, Stretch.frame]
  | ack | noise | stray | unfinished => rfl

theorem length_framesFrom :
    (framesFrom frameId offset stretches).length = stretches.countP Stretch.isFrame := by
  induction stretches generalizing frameId offset with
  | nil => rfl
  | cons stretch stretches ih =>
    rw [framesFrom, List.countP_cons, ← @isSome_frame offset frameId]
    split
    · next hnone => rw [ih, hnone]; rfl
    · next hsome => rw [List.length_cons, ih, hsome]; rfl

theorem issue_eq (text : String) (h : stream.issues.length ≤ maxIssues) :
    stream.issue text = { stream with issues := (stream.issues ++ [text]).take maxIssues } := by
  unfold FramedStream.issue
  split
  · next hroom => rw [List.take_of_length_le (by simpa using Nat.succ_le_of_lt hroom)]
  · next hfull => rw [List.take_append_of_le_length (by omega), List.take_of_length_le h]

/-- The stream with what a stretch at the cursor adds within the limits. -/
def added (stream : FramedStream) (cursor : Nat) (stretch : Stretch) : FramedStream where
  frames := (stream.frames ++
    (stretch.frame (stream.frames.length + 1) cursor).toList).take maxFrames
  ackCount := stream.ackCount + stretch.isAck.toNat
  issues := (stream.issues ++ (stretch.issue cursor).toList).take maxIssues
  truncated := stream.truncated || (stretch.isFrame && decide (maxFrames ≤ stream.frames.length))

theorem added_issue {text : String} (hframes : stream.frames.length ≤ maxFrames)
    (hissues : stream.issues.length ≤ maxIssues) (hack : stretch.isAck = false)
    (hframe : stretch.isFrame = false) (hissue : stretch.issue cursor = some text) :
    added stream cursor stretch = stream.issue text := by
  have hnone : stretch.frame (stream.frames.length + 1) cursor = none := by
    rw [← Option.isNone_iff_eq_none, ← Option.not_isSome, isSome_frame, hframe]
    rfl
  rw [issue_eq text hissues, added, hack, hframe, hissue, hnone]
  simp [List.take_of_length_le hframes]

theorem added_frame {frame : Frame} (hframes : stream.frames.length ≤ maxFrames)
    (hack : stretch.isAck = false) (hframe : stretch.isFrame = true)
    (hsome : stretch.frame (stream.frames.length + 1) cursor = some frame) :
    added stream cursor stretch =
      let stream := { stream with
        issues := (stream.issues ++ (stretch.issue cursor).toList).take maxIssues }
      if stream.frames.length < maxFrames then { stream with frames := stream.frames ++ [frame] }
      else { stream with truncated := true } := by
  rw [added, hack, hframe, hsome]
  dsimp only
  split
  · next hroom =>
    have hadd : (stream.frames ++ [frame]).length ≤ maxFrames := by
      rw [List.length_append, List.length_singleton]
      omega
    rw [Option.toList_some, List.take_of_length_le hadd,
      decide_eq_false (by omega : ¬ maxFrames ≤ stream.frames.length)]
    simp
  · next hfull =>
    rw [Option.toList_some, List.take_append_of_le_length (by omega),
      List.take_of_length_le hframes,
      decide_eq_true (by omega : maxFrames ≤ stream.frames.length)]
    simp

/-- A turn adds the frame, the ACK and the issue of its stretch. -/
theorem turn_eq (hframes : stream.frames.length ≤ maxFrames)
    (hissues : stream.issues.length ≤ maxIssues) :
    turn stream cursor stretch = added stream cursor stretch := by
  cases stretch with
  | ack =>
    simp [turn, added, Stretch.frame, Stretch.issue, Stretch.isAck, Stretch.isFrame,
      List.take_of_length_le hframes, List.take_of_length_le hissues]
  | noise => exact (added_issue hframes hissues rfl rfl rfl).symm
  | stray rejection => cases rejection <;> exact (added_issue hframes hissues rfl rfl rfl).symm
  | unfinished part => cases part <;> exact (added_issue hframes hissues rfl rfl rfl).symm
  | envelope e =>
    cases hexpected : e.expected with
    | none =>
      have hisFrame : (Stretch.envelope e).isFrame = false := by
        rw [Stretch.isFrame, Stretch.frame, hexpected]
        rfl
      have hissue : (Stretch.envelope e).issue cursor = some s!"malformed_trailer:{cursor}" := by
        rw [Stretch.issue, hexpected]
      rw [added_issue hframes hissues rfl hisFrame hissue, turn, hexpected]
    | some expected =>
      have hvalid : (((bcc e.toBlock.encode).toNat : Int) == expected) = e.valid := by
        rw [Envelope.valid, hexpected, Bool.eq_iff_iff, beq_iff_eq, beq_iff_eq, Option.some.injEq]
        exact eq_comm
      have hissue : (if e.valid = true then stream else
          stream.issue s!"bcc_mismatch:{cursor}") = { stream with issues :=
            (stream.issues ++ ((Stretch.envelope e).issue cursor).toList).take maxIssues } := by
        simp only [Stretch.issue, hexpected]
        split
        · rw [Option.toList_none, List.append_nil, List.take_of_length_le hissues]
        · exact issue_eq _ hissues
      have hisFrame : (Stretch.envelope e).isFrame = true := by
        rw [Stretch.isFrame, Stretch.frame, hexpected]
        rfl
      have hframe : (Stretch.envelope e).frame (stream.frames.length + 1) cursor =
          some (e.toBlock.received e.bccHigh e.bccLow e.valid (stream.frames.length + 1) cursor) := by
        rw [Stretch.frame, hexpected]
        rfl
      rw [added_frame hframes rfl hisFrame hframe]
      simp only [turn, hexpected, Envelope.encode, accept_block, hvalid, hissue]

theorem issuesFrom_cons : issuesFrom offset (stretch :: stretches) =
    (stretch.issue offset).toList ++ issuesFrom (offset + stretch.bytes.length) stretches := by
  rw [issuesFrom, place, List.filterMap_cons]
  cases hissue : stretch.issue offset <;> simp [hissue, issuesFrom]

theorem take_take_append {α : Type} {n : Nat} {l more : List α} :
    (l.take n ++ more).take n = (l ++ more).take n := by
  rw [List.take_append, List.take_append, List.take_take, Nat.min_self, List.length_take]
  congr 2
  omega

theorem length_added : (added stream cursor stretch).frames.length =
    min maxFrames (stream.frames.length + stretch.isFrame.toNat) := by
  rw [added, List.length_take, List.length_append,
    ← @isSome_frame cursor (stream.frames.length + 1)]
  cases stretch.frame (stream.frames.length + 1) cursor <;> rfl

/-- The frames of the stretches behind a stretch, within the limit. -/
theorem frames_added (hframes : stream.frames.length ≤ maxFrames) :
    ((added stream cursor stretch).frames ++
        framesFrom ((added stream cursor stretch).frames.length + 1)
          (cursor + stretch.bytes.length) stretches).take maxFrames =
      (stream.frames ++
        framesFrom (stream.frames.length + 1) cursor (stretch :: stretches)).take maxFrames := by
  rw [framesFrom]
  simp only [added]
  split
  · next hnone =>
    rw [hnone, Option.toList_none, List.append_nil, List.take_of_length_le hframes]
  · next frame hsome =>
    rw [hsome, Option.toList_some]
    by_cases hroom : stream.frames.length < maxFrames
    · have hadd : (stream.frames ++ [frame]).take maxFrames = stream.frames ++ [frame] := by
        refine List.take_of_length_le ?_
        rw [List.length_append, List.length_singleton]
        omega
      rw [hadd, List.length_append, List.length_singleton, List.append_assoc,
        List.singleton_append]
    · have hfull : maxFrames ≤ stream.frames.length := by omega
      rw [List.take_append_of_le_length hfull, List.take_of_length_le hframes,
        List.take_append_of_le_length hfull, List.take_append_of_le_length hfull]

/-- Frames past the limit are dropped, and then frames only are missed. -/
theorem turns_eq (hframes : stream.frames.length ≤ maxFrames)
    (hissues : stream.issues.length ≤ maxIssues) : turns stream cursor stretches =
      { frames := (stream.frames ++
          framesFrom (stream.frames.length + 1) cursor stretches).take maxFrames
        ackCount := stream.ackCount + stretches.countP Stretch.isAck
        issues := (stream.issues ++ issuesFrom cursor stretches).take maxIssues
        truncated := stream.truncated ||
          decide (maxFrames < stream.frames.length + stretches.countP Stretch.isFrame) } := by
  induction stretches generalizing stream cursor with
  | nil =>
    have hroom : ¬ maxFrames < stream.frames.length := by omega
    simp [turns, framesFrom, issuesFrom, place, List.take_of_length_le hframes,
      List.take_of_length_le hissues, hroom]
  | cons stretch stretches ih =>
    have hadded : (added stream cursor stretch).frames.length ≤ maxFrames := by
      simp [added]
    rw [turns, turn_eq hframes hissues, ih hadded (by simp [added]), issuesFrom_cons]
    congr 1
    · exact frames_added hframes
    · rw [List.countP_cons, added]
      cases stretch.isAck with
      | false => rfl
      | true => exact Nat.add_right_comm ..
    · rw [added, take_take_append, List.append_assoc]
    · rw [List.countP_cons, length_added, added]
      dsimp only
      rw [Bool.or_assoc]
      congr 1
      rw [Bool.eq_iff_iff]
      generalize stretch.isFrame = isFrame
      cases isFrame with
      | false =>
        simp
        omega
      | true =>
        simp
        omega

/-! ## Every byte is accounted for -/

/-- The framing of a payload, told by the stretches of what is read of it. -/
structure Accounts (payload : Bytes) (stretches : List Stretch) : Prop where
  split : payload.take maxInputBytes = joined stretches
  frames : (frameStream payload).frames = (framesFrom 1 0 stretches).take maxFrames
  acks : (frameStream payload).ackCount = stretches.countP Stretch.isAck
  truncated : (frameStream payload).truncated = (decide (maxInputBytes < payload.length) ||
    decide (maxFrames < stretches.countP Stretch.isFrame))
  issues : (frameStream payload).issues =
    (if maxIssues ≤ (issuesFrom 0 stretches).length then
      ((issuesFrom 0 stretches).take maxIssues).dropLast ++ ["issue_limit_exceeded"]
    else issuesFrom 0 stretches) ++
      if maxInputBytes < payload.length then ["parser_input_limit_exceeded"] else []

theorem accounts_of (hsplit : payload.take maxInputBytes = joined stretches)
    (hscan : ∀ cursor stream, scan (payload.take maxInputBytes) cursor 0 stream =
      turns stream cursor stretches) : Accounts payload stretches := by
  have hview : scan (payload.take maxInputBytes) 0 0
      { truncated := decide (maxInputBytes < payload.length) } =
        { frames := (framesFrom 1 0 stretches).take maxFrames
          ackCount := stretches.countP Stretch.isAck
          issues := (issuesFrom 0 stretches).take maxIssues
          truncated := decide (maxInputBytes < payload.length) ||
            decide (maxFrames < stretches.countP Stretch.isFrame) } := by
    rw [hscan, turns_eq (Nat.zero_le _) (Nat.zero_le _)]
    simp
  refine ⟨hsplit, ?_, ?_, ?_, ?_⟩
  · simp [frameStream, hview]
  · simp [frameStream, hview]
  · simp [frameStream, hview]
  · have hlength : (payload.take maxInputBytes).length < payload.length ↔
        maxInputBytes < payload.length := by
      rw [List.length_take]
      omega
    simp only [frameStream, hview, hlength]
    by_cases hfull : maxIssues ≤ (issuesFrom 0 stretches).length
    · rw [List.length_take, Nat.min_eq_left hfull, if_pos (Nat.le_refl _), if_pos hfull]
      split <;> simp
    · rw [List.take_of_length_le (by omega), if_neg hfull]
      split <;> simp

theorem exists_accounts (payload : Bytes) : ∃ stretches, Accounts payload stretches := by
  obtain ⟨stretches, hsplit, hscan⟩ := exists_stretches (payload.take maxInputBytes)
  exact ⟨stretches, accounts_of hsplit hscan⟩

/-! ### Places -/

variable {frame : Frame}

theorem frame_eq_some (h : stretch.frame frameId offset = some frame) :
    frame.frameId = frameId ∧ frame.offset = offset ∧ frame.raw = stretch.bytes ∧
      (frame.bccValid = true → stretch.issue offset = none) := by
  cases stretch with
  | ack | noise | stray | unfinished => simp [Stretch.frame] at h
  | envelope e =>
    obtain ⟨expected, hexpected, rfl⟩ := Option.map_eq_some_iff.mp h
    refine ⟨rfl, rfl, rfl, fun hvalid => ?_⟩
    have hvalid : e.valid = true := hvalid
    simp [Stretch.issue, hexpected, hvalid]

theorem joined_cons : joined (stretch :: stretches) = stretch.bytes ++ joined stretches := rfl

/-- A stretch is the slice of the bytes at its place. -/
theorem slice_of_mem_place {o : Nat} (h : (o, stretch) ∈ place offset stretches) :
    offset ≤ o ∧ ((joined stretches).drop (o - offset)).take stretch.bytes.length =
      stretch.bytes := by
  induction stretches generalizing offset with
  | nil => exact absurd h List.not_mem_nil
  | cons first stretches ih =>
    rw [place] at h
    rw [joined_cons]
    obtain heq | hm := List.mem_cons.mp h
    · obtain ⟨rfl, rfl⟩ := Prod.mk.inj heq
      refine ⟨Nat.le_refl _, ?_⟩
      rw [Nat.sub_self, List.drop_zero, List.take_left]
    · obtain ⟨hle, hslice⟩ := ih hm
      refine ⟨by omega, ?_⟩
      have hskip : o - offset = first.bytes.length + (o - (offset + first.bytes.length)) := by
        omega
      rw [hskip, ← List.drop_drop, List.drop_left]
      exact hslice

theorem end_of_mem_place {o : Nat} (h : (o, stretch) ∈ place 0 stretches) :
    o + stretch.bytes.length ≤ (joined stretches).length := by
  have hpos := length_bytes_pos stretch
  have hslice := congrArg List.length (slice_of_mem_place h).2
  rw [List.length_take, List.length_drop] at hslice
  omega

/-- Every byte lies in one of the stretches. -/
theorem exists_mem_place {i : Nat} (hle : offset ≤ i)
    (hlt : i < offset + (joined stretches).length) :
    ∃ o stretch, (o, stretch) ∈ place offset stretches ∧ o ≤ i ∧ i < o + stretch.bytes.length := by
  induction stretches generalizing offset with
  | nil => simp [joined] at hlt; omega
  | cons first stretches ih =>
    rw [joined_cons, List.length_append] at hlt
    by_cases hin : i < offset + first.bytes.length
    · exact ⟨offset, first, List.mem_cons_self, hle, hin⟩
    · obtain ⟨o, stretch, hm, hplace⟩ := ih (by omega : offset + first.bytes.length ≤ i) (by omega)
      exact ⟨o, stretch, List.mem_cons_of_mem _ hm, hplace⟩

theorem mem_framesFrom (h : frame ∈ framesFrom frameId offset stretches) :
    frameId ≤ frame.frameId ∧ ∃ stretch, (frame.offset, stretch) ∈ place offset stretches ∧
      frame.raw = stretch.bytes ∧ stretch.frame frame.frameId frame.offset = some frame := by
  induction stretches generalizing frameId offset with
  | nil => exact absurd h List.not_mem_nil
  | cons first stretches ih =>
    rw [framesFrom] at h
    split at h
    · obtain ⟨hid, stretch, hm, hrest⟩ := ih h
      exact ⟨hid, stretch, List.mem_cons_of_mem _ hm, hrest⟩
    · next head hhead =>
      obtain rfl | h := List.mem_cons.mp h
      · obtain ⟨hid, hoffset, hraw, -⟩ := frame_eq_some hhead
        refine ⟨by omega, first, ?_, hraw, by rw [hid, hoffset, hhead]⟩
        rw [hoffset]
        exact List.mem_cons_self
      · obtain ⟨hid, stretch, hm, hrest⟩ := ih h
        exact ⟨by omega, stretch, List.mem_cons_of_mem _ hm, hrest⟩

/-- A frame ends before the next one begins, and its number is smaller. -/
def Before (a b : Frame) : Prop :=
  a.frameId < b.frameId ∧ a.offset + a.raw.length ≤ b.offset

theorem pairwise_framesFrom : (framesFrom frameId offset stretches).Pairwise Before := by
  induction stretches generalizing frameId offset with
  | nil => exact List.Pairwise.nil
  | cons stretch stretches ih =>
    rw [framesFrom]
    split
    · exact ih
    · next frame hframe =>
      refine List.pairwise_cons.mpr ⟨fun other hm => ?_, ih⟩
      obtain ⟨hid, hoffset, hraw, -⟩ := frame_eq_some hframe
      obtain ⟨hother, placed, hplace, -⟩ := mem_framesFrom hm
      have hle := (slice_of_mem_place hplace).1
      exact ⟨by omega, by rw [hoffset, hraw]; exact hle⟩

/-! ### Below the limits -/

/-- Each frame is the slice of the payload at its offset. -/
def Sliced (payload : Bytes) (frame : Frame) : Prop :=
  frame.raw ≠ [] ∧ (payload.drop frame.offset).take frame.raw.length = frame.raw

/-- A byte is in a frame, is an ACK or is covered by an issue. -/
theorem stretch_cases (stretch : Stretch) :
    stretch = .ack ∨ stretch.isFrame = true ∨ (stretch.issue offset).isSome = true := by
  cases stretch with
  | ack => exact Or.inl rfl
  | noise => exact Or.inr (Or.inr rfl)
  | stray rejection => cases rejection <;> exact Or.inr (Or.inr rfl)
  | unfinished part => cases part <;> exact Or.inr (Or.inr rfl)
  | envelope e =>
    refine Or.inr ?_
    cases hexpected : e.expected with
    | none => exact Or.inr (by simp [Stretch.issue, hexpected])
    | some expected => exact Or.inl (by simp [Stretch.isFrame, Stretch.frame, hexpected])

theorem length_le_joined : stretches.length ≤ (joined stretches).length := by
  induction stretches with
  | nil => exact Nat.le_refl _
  | cons stretch stretches ih =>
    have hpos := length_bytes_pos stretch
    rw [joined_cons, List.length_append, List.length_cons]
    omega

theorem exists_frame_of_mem_place {o : Nat} (h : (o, stretch) ∈ place offset stretches)
    (hframe : stretch.isFrame = true) : ∃ frame ∈ framesFrom frameId offset stretches,
      ∃ n, stretch.frame n o = some frame := by
  induction stretches generalizing frameId offset with
  | nil => exact absurd h List.not_mem_nil
  | cons first stretches ih =>
    rw [framesFrom]
    obtain heq | hm := List.mem_cons.mp h
    · obtain ⟨rfl, rfl⟩ := Prod.mk.inj heq
      obtain ⟨frame, hsome⟩ :=
        Option.isSome_iff_exists.mp ((@isSome_frame o frameId stretch).trans hframe)
      refine ⟨frame, ?_, frameId, hsome⟩
      rw [hsome]
      exact List.mem_cons_self
    · split
      · exact ih hm
      · obtain ⟨frame, hmem, hplace⟩ := ih hm
        exact ⟨frame, List.mem_cons_of_mem _ hmem, hplace⟩

theorem issue_mem_issuesFrom {o : Nat} {text : String} (h : (o, stretch) ∈ place offset stretches)
    (hissue : stretch.issue o = some text) : text ∈ issuesFrom offset stretches :=
  List.mem_filterMap.mpr ⟨(o, stretch), h, hissue⟩

theorem Accounts.pairwise_frames (h : Accounts payload stretches) :
    (frameStream payload).frames.Pairwise Before := by
  rw [h.frames]
  exact pairwise_framesFrom.sublist (List.take_sublist _ _)

theorem Accounts.sliced (h : Accounts payload stretches) {frame : Frame}
    (hm : frame ∈ (frameStream payload).frames) : Sliced payload frame := by
  rw [h.frames] at hm
  obtain ⟨-, stretch, hplace, hraw, -⟩ := mem_framesFrom (List.mem_of_mem_take hm)
  have hslice := (slice_of_mem_place hplace).2
  rw [← h.split, Nat.sub_zero, List.drop_take, List.take_take] at hslice
  have hlength := congrArg List.length hslice
  rw [List.length_take] at hlength
  rw [Nat.min_eq_left (by omega)] at hslice
  refine ⟨?_, ?_⟩
  · rw [hraw]
    exact bytes_ne_nil stretch
  · rw [hraw]
    exact hslice

/-- Below the limits the loop ends within as many turns as there are bytes, the
frames are slices of the payload one behind the other, and every byte is in one
of them, is a counted ACK or is covered by a reported issue. -/
theorem stream_accounted {payload : Bytes} (hbytes : payload.length ≤ maxInputBytes)
    (hframes : (frameStream payload).truncated = false)
    (hissues : (frameStream payload).issues.length < maxIssues) :
    (frameStream payload).frames.Pairwise Before ∧
      (∀ frame ∈ (frameStream payload).frames, Sliced payload frame) ∧
      ∃ stretches, payload = joined stretches ∧ stretches.length ≤ payload.length ∧
        frameStream payload = turns {} 0 stretches ∧
        (frameStream payload).ackCount = stretches.countP Stretch.isAck ∧
        (frameStream payload).issues = issuesFrom 0 stretches ∧
        ∀ i < payload.length, ∃ offset stretch, (offset, stretch) ∈ place 0 stretches ∧
          offset ≤ i ∧ i < offset + stretch.bytes.length ∧
          (stretch = .ack ∨
            (∃ frame ∈ (frameStream payload).frames,
              frame.offset = offset ∧ frame.raw = stretch.bytes) ∨
            ∃ text ∈ (frameStream payload).issues, stretch.issue offset = some text) := by
  obtain ⟨stretches, h⟩ := exists_accounts payload
  have hview : payload.take maxInputBytes = payload := List.take_of_length_le hbytes
  have hsplit : payload = joined stretches := hview ▸ h.split
  have hcount : ¬ maxFrames < stretches.countP Stretch.isFrame := by
    have htruncated := h.truncated
    rw [hframes] at htruncated
    simp at htruncated
    omega
  have hreported : (frameStream payload).issues = issuesFrom 0 stretches := by
    have hlimited := h.issues
    rw [if_neg (by omega : ¬ maxInputBytes < payload.length), List.append_nil] at hlimited
    rw [hlimited, if_neg]
    intro hfull
    rw [hlimited, if_pos hfull] at hissues
    simp at hissues
    omega
  have hkept : (frameStream payload).frames = framesFrom 1 0 stretches := by
    rw [h.frames, List.take_of_length_le (by rw [length_framesFrom]; omega)]
  refine ⟨h.pairwise_frames, fun frame => h.sliced, stretches, hsplit, ?_, ?_, h.acks, hreported,
    fun i hi => ?_⟩
  · conv => rhs; rw [hsplit]
    exact length_le_joined
  · have hturns := @turns_eq 0 {} stretches (Nat.zero_le _) (Nat.zero_le _)
    have hroom : (framesFrom 1 0 stretches).length ≤ maxFrames := by
      rw [length_framesFrom]
      omega
    have hquiet : (issuesFrom 0 stretches).length ≤ maxIssues := hreported ▸ hissues.le
    calc frameStream payload
        = ⟨(frameStream payload).frames, (frameStream payload).ackCount,
            (frameStream payload).issues, (frameStream payload).truncated⟩ := rfl
      _ = turns {} 0 stretches := by
          rw [hkept, h.acks, hreported, hframes, hturns]
          simp [List.take_of_length_le hroom, List.take_of_length_le hquiet]
          omega
  · obtain ⟨offset, stretch, hplace, hle, hlt⟩ :=
      @exists_mem_place 0 stretches i (Nat.zero_le i) (by rw [← hsplit]; omega)
    refine ⟨offset, stretch, hplace, hle, hlt, ?_⟩
    obtain hack | hframe | hissue := @stretch_cases offset stretch
    · exact Or.inl hack
    · rw [hkept]
      obtain ⟨frame, hmem, n, hsome⟩ := exists_frame_of_mem_place hplace hframe
      obtain ⟨-, hoffset, hraw, -⟩ := frame_eq_some hsome
      exact Or.inr (Or.inl ⟨frame, hmem, hoffset, hraw⟩)
    · obtain ⟨text, htext⟩ := Option.isSome_iff_exists.mp hissue
      exact Or.inr (Or.inr ⟨text, hreported ▸ issue_mem_issuesFrom hplace htext, htext⟩)

/-- Noise, an ACK, a frame and an STX byte without a header. -/
def mixedStream : Bytes := [0x41, RchFraming.ack] ++ openFrame.encode ++ [stx, 0x42]

theorem stream_accounted_mixed :
    (frameStream mixedStream).frames.length = 1 ∧
      ∃ stretches, mixedStream = joined stretches ∧
        (frameStream mixedStream).ackCount = stretches.countP Stretch.isAck ∧
        (frameStream mixedStream).issues = issuesFrom 0 stretches ∧
        ∀ frame ∈ (frameStream mixedStream).frames, Sliced mixedStream frame := by
  obtain ⟨-, hsliced, stretches, hsplit, -, -, hacks, hissues, -⟩ :=
    @stream_accounted mixedStream (by decide +kernel) (by decide +kernel) (by decide +kernel)
  exact ⟨by decide +kernel, stretches, hsplit, hacks, hissues, hsliced⟩

end RetailPrintGuard.Parser.RchAccounting
