import Mathlib.Data.List.GetD
import Mathlib.Tactic.IntervalCases
import RetailPrintGuard.Common.Formats

/-! # RCH frames

A frame is STX, two digits of address, three digits of length, a class byte,
the data, a sequence byte, two hexadecimal digits of block check and ETX. Lone
ACK bytes stand between frames. -/
namespace RetailPrintGuard.Parser.RchFraming
open RetailPrintGuard.Common.Formats

def stx : UInt8 := 0x02
def etx : UInt8 := 0x03
def ack : UInt8 := 0x06

def maxInputBytes : Nat := 16 * 1024 * 1024
def maxFrames : Nat := 8192
def maxIssues : Nat := 1024

/-- `bytes.decode("latin-1")` -/
def latin1 (bytes : Bytes) : List Char := bytes.map fun byte => Char.ofNat byte.toNat

structure Frame where
  frameId : Nat
  offset : Nat
  raw : Bytes
  address : List Char
  frameClass : Char
  data : Bytes
  sequence : Char
  bccValid : Bool
deriving DecidableEq

def Frame.text (frame : Frame) : List Char := latin1 frame.data

structure FramedStream where
  frames : List Frame := []
  ackCount : Nat := 0
  issues : List String := []
  truncated : Bool := false
deriving DecidableEq

/-! ## Bytes as numbers -/

/-- `bytes.isdigit` on one byte -/
def isDigit (byte : UInt8) : Bool := 48 ≤ byte && byte ≤ 57

/-- `int` on decimal digits -/
def decimalValue (digits : Bytes) : Nat :=
  digits.foldl (fun value byte => value * 10 + (byte.toNat - 48)) 0

def hexDigit (byte : UInt8) : Option Nat :=
  if 48 ≤ byte ∧ byte ≤ 57 then some (byte.toNat - 48)
  else if 65 ≤ byte ∧ byte ≤ 70 then some (byte.toNat - 55)
  else if 97 ≤ byte ∧ byte ≤ 102 then some (byte.toNat - 87)
  else none

/-- The bytes `int` strips from a text. -/
def isBlank (byte : UInt8) : Bool := byte == 32 || (9 ≤ byte && byte ≤ 13)

/-- `int(text, 16)` on two bytes: a blank or a sign may stand for a digit. -/
def hexValue (high low : UInt8) : Option Int :=
  match hexDigit high, hexDigit low with
  | some high, some low => some (16 * high + low)
  | some high, none => if isBlank low then some high else none
  | none, some low =>
    if isBlank high || high == 43 then some low
    else if high == 45 then some (-low)
    else none
  | none, none => none

/-- `_bcc`: the exclusive or of all bytes. -/
def bcc (block : Bytes) : UInt8 := block.foldl (· ^^^ ·) 0

/-! ## The scanner -/

def FramedStream.issue (stream : FramedStream) (text : String) : FramedStream :=
  if stream.issues.length < maxIssues then { stream with issues := stream.issues ++ [text] }
  else stream

/-- A frame whose trailer was read. -/
def FramedStream.accept (stream : FramedStream) (cursor : Nat) (raw : Bytes) (dataLength : Nat)
    (expected : Int) : FramedStream :=
  let valid := ((bcc (raw.take (raw.length - 3))).toNat : Int) == expected
  let stream := if valid then stream else stream.issue s!"bcc_mismatch:{cursor}"
  if stream.frames.length < maxFrames then
    { stream with
      frames := stream.frames ++
        [{ frameId := stream.frames.length + 1
           offset := cursor
           raw := raw
           address := latin1 ((raw.drop 1).take 2)
           frameClass := Char.ofNat (raw.getD 6 0).toNat
           data := (raw.drop 7).take dataLength
           sequence := Char.ofNat (raw.getD (raw.length - 4) 0).toNat
           bccValid := valid }] }
  else { stream with truncated := true }

/-- One turn of the loop on `view[cursor:]`: the bytes it moves on, or `none`
where the loop ends. -/
def scanStep (cursor : Nat) (rest : Bytes) (stream : FramedStream) : Option Nat × FramedStream :=
  let byte := rest.getD 0 0
  let remaining := rest.length
  if byte == ack then (some 1, { stream with ackCount := stream.ackCount + 1 })
  else if byte != stx then
    let noise := 1 + ((rest.drop 1).takeWhile fun byte => byte != stx && byte != ack).length
    (some noise, stream.issue s!"unframed_bytes:{cursor}:{noise}")
  else if remaining < 6 then (none, stream.issue s!"truncated_header:{cursor}:{remaining}")
  else if !((rest.drop 1).take 2).all isDigit || !((rest.drop 3).take 3).all isDigit then
    (some 1, stream.issue s!"malformed_header:{cursor}")
  else
    let dataLength := decimalValue ((rest.drop 3).take 3)
    let total := dataLength + 11
    if remaining < total then (none, stream.issue s!"truncated_frame:{cursor}:{remaining}")
    else if rest.getD (total - 1) 0 != etx then (some 1, stream.issue s!"missing_etx:{cursor}")
    else
      match hexValue (rest.getD (total - 3) 0) (rest.getD (total - 2) 0) with
      | none => (some total, stream.issue s!"malformed_trailer:{cursor}")
      | some expected => (some total, stream.accept cursor (rest.take total) dataLength expected)

/-- The loop on `view[cursor:]`, with the bytes of it that are consumed. -/
def scan : Bytes → Nat → Nat → FramedStream → FramedStream
  | [], _, _, stream => stream
  | _ :: rest, cursor, skip + 1, stream => scan rest (cursor + 1) skip stream
  | byte :: rest, cursor, 0, stream =>
    match scanStep cursor (byte :: rest) stream with
    | (none, stream) => stream
    | (some consumed, stream) => scan rest (cursor + 1) (consumed - 1) stream

def frameStream (payload : Bytes) : FramedStream :=
  let view := payload.take maxInputBytes
  let stream := scan view 0 0 { truncated := decide (maxInputBytes < payload.length) }
  let issues :=
    if maxIssues ≤ stream.issues.length then stream.issues.dropLast ++ ["issue_limit_exceeded"]
    else stream.issues
  { stream with
    issues :=
      if view.length < payload.length then issues ++ ["parser_input_limit_exceeded"] else issues }

/-! ## What a sender writes -/

/-- What the block check of a frame covers. -/
structure Block where
  addressHigh : UInt8
  addressLow : UInt8
  frameClass : UInt8
  data : Bytes
  sequence : UInt8
  address : isDigit addressHigh = true ∧ isDigit addressLow = true
  length : data.length ≤ 999

/-- A number below a thousand in three digits. -/
def lengthDigits (n : Nat) : Bytes :=
  [UInt8.ofNat (48 + n / 100), UInt8.ofNat (48 + n / 10 % 10), UInt8.ofNat (48 + n % 10)]

def Block.encode (block : Block) : Bytes :=
  [stx, block.addressHigh, block.addressLow] ++ lengthDigits block.data.length ++
    [block.frameClass] ++ block.data ++ [block.sequence]

/-- The command `=K`. -/
def openBlock : Block where
  addressHigh := 48
  addressLow := 48
  frameClass := 122
  data := [61, 75]
  sequence := 48
  address := by decide
  length := by decide

/-- A frame with the right block check, in digits of either case. -/
structure SentFrame extends Block where
  bccHigh : UInt8
  bccLow : UInt8
  checked : hexDigit bccHigh = some ((bcc toBlock.encode).toNat / 16) ∧
    hexDigit bccLow = some ((bcc toBlock.encode).toNat % 16)

def openFrame : SentFrame where
  toBlock := openBlock
  bccHigh := 48
  bccLow := 67
  checked := by decide

def SentFrame.encode (frame : SentFrame) : Bytes :=
  frame.toBlock.encode ++ [frame.bccHigh, frame.bccLow, etx]

/-- What stands on the wire. -/
inductive Signal where
  | ack
  | frame (sent : SentFrame)

def Signal.encode : Signal → Bytes
  | .ack => [RchFraming.ack]
  | .frame sent => sent.encode

def encodeAll (signals : List Signal) : Bytes := signals.flatMap Signal.encode

theorem encodeAll_cons (signal : Signal) (signals : List Signal) :
    encodeAll (signal :: signals) = signal.encode ++ encodeAll signals := List.flatMap_cons

def frameCount (signals : List Signal) : Nat :=
  signals.countP fun signal => match signal with | .frame _ => true | .ack => false

def ackCount (signals : List Signal) : Nat :=
  signals.countP fun signal => match signal with | .frame _ => false | .ack => true

/-- The frame as it is received. -/
def SentFrame.received (frame : SentFrame) (frameId offset : Nat) : Frame where
  frameId := frameId
  offset := offset
  raw := frame.encode
  address := latin1 [frame.addressHigh, frame.addressLow]
  frameClass := Char.ofNat frame.frameClass.toNat
  data := frame.data
  sequence := Char.ofNat frame.sequence.toNat
  bccValid := true

/-- The frames among the signals, numbered and at their offsets. -/
def receivedFrames : Nat → Nat → List Signal → List Frame
  | _, _, [] => []
  | frameId, offset, .ack :: signals => receivedFrames frameId (offset + 1) signals
  | frameId, offset, .frame sent :: signals =>
    sent.received frameId offset ::
      receivedFrames (frameId + 1) (offset + sent.encode.length) signals

/-! ## Reading it back -/

variable {cursor : Nat} {stream : FramedStream}

theorem scan_skip (consumed rest : Bytes) :
    scan (consumed ++ rest) cursor consumed.length stream =
      scan rest (cursor + consumed.length) 0 stream := by
  induction consumed generalizing cursor with
  | nil => rfl
  | cons byte consumed ih =>
    show scan (consumed ++ rest) (cursor + 1) consumed.length stream = _
    rw [ih, List.length_cons, Nat.add_assoc, Nat.add_comm 1]

/-- A turn that consumes some bytes goes on behind them. -/
theorem scan_of_step {consumed rest : Bytes} {next : FramedStream} (hne : consumed ≠ [])
    (h : scanStep cursor (consumed ++ rest) stream = (some consumed.length, next)) :
    scan (consumed ++ rest) cursor 0 stream = scan rest (cursor + consumed.length) 0 next := by
  cases consumed with
  | nil => exact absurd rfl hne
  | cons byte consumed =>
    rw [List.cons_append] at h ⊢
    rw [scan, h]
    show scan (consumed ++ rest) (cursor + 1) consumed.length next = _
    rw [scan_skip, List.length_cons, Nat.add_assoc, Nat.add_comm 1]

theorem isDigit_ofNat {n : Nat} (h : n < 10) : isDigit (UInt8.ofNat (48 + n)) = true := by
  interval_cases n <;> rfl

theorem toNat_digit {n : Nat} (h : n < 10) : (UInt8.ofNat (48 + n)).toNat - 48 = n := by
  interval_cases n <;> rfl

theorem all_isDigit_lengthDigits {n : Nat} (h : n ≤ 999) :
    (lengthDigits n).all isDigit = true := by
  simp only [lengthDigits, List.all_cons, List.all_nil, Bool.and_true, Bool.and_eq_true]
  exact ⟨isDigit_ofNat (by omega), isDigit_ofNat (by omega), isDigit_ofNat (by omega)⟩

theorem decimalValue_lengthDigits {n : Nat} (h : n ≤ 999) : decimalValue (lengthDigits n) = n := by
  simp only [decimalValue, lengthDigits, List.foldl_cons, List.foldl_nil]
  rw [toNat_digit (by omega), toNat_digit (by omega), toNat_digit (by omega)]
  omega

theorem hexValue_of_digits {high low : UInt8} {check : Nat}
    (h : hexDigit high = some (check / 16) ∧ hexDigit low = some (check % 16)) :
    hexValue high low = some (check : Int) := by
  rw [hexValue, h.1, h.2]
  show some (16 * ((check / 16 : Nat) : Int) + ((check % 16 : Nat) : Int)) = _
  congr 1
  omega

theorem length_block (block : Block) : block.encode.length = block.data.length + 8 := by
  simp only [Block.encode, lengthDigits, List.length_append, List.length_cons, List.length_nil]
  omega

theorem length_encode (frame : SentFrame) : frame.encode.length = frame.data.length + 11 := by
  simp only [SentFrame.encode, length_block, List.length_append, List.length_cons, List.length_nil]

theorem encode_append (block : Block) (rest : Bytes) :
    block.encode ++ rest =
      [stx, block.addressHigh, block.addressLow] ++ lengthDigits block.data.length ++
        (block.frameClass :: block.data ++ (block.sequence :: rest)) := by
  simp [Block.encode]

/-- A byte behind the data of a block. -/
theorem getD_trailer (block : Block) (rest : Bytes) (k : Nat) :
    (block.encode ++ rest).getD (block.data.length + 7 + k) 0 =
      (block.sequence :: rest).getD k 0 := by
  have hlength : ([stx, block.addressHigh, block.addressLow] ++ lengthDigits block.data.length ++
      (block.frameClass :: block.data)).length = block.data.length + 7 := by
    simp [lengthDigits]
  rw [encode_append, ← List.append_assoc, List.getD_append_right _ _ _ _ (by omega), hlength]
  congr 1
  omega

/-- The data of a block are passed over whatever bytes they hold: only the
length field says where they end. -/
theorem scanStep_block (block : Block) (high low : UInt8) (rest : Bytes) :
    scanStep cursor (block.encode ++ high :: low :: etx :: rest) stream =
      match hexValue high low with
      | none => (some (block.data.length + 11), stream.issue s!"malformed_trailer:{cursor}")
      | some expected => (some (block.data.length + 11),
          stream.accept cursor (block.encode ++ [high, low, etx]) block.data.length expected) := by
  have hlength := length_block block
  have hremaining : (block.encode ++ high :: low :: etx :: rest).length =
      block.data.length + 11 + rest.length := by
    rw [List.length_append, hlength]
    simp only [List.length_cons]
    omega
  have hbyte : (block.encode ++ high :: low :: etx :: rest).getD 0 0 = stx := by
    rw [encode_append]; rfl
  have haddress : ((block.encode ++ high :: low :: etx :: rest).drop 1).take 2 =
      [block.addressHigh, block.addressLow] := by rw [encode_append]; rfl
  have hdigits : ((block.encode ++ high :: low :: etx :: rest).drop 3).take 3 =
      lengthDigits block.data.length := by rw [encode_append]; rfl
  have hetx : (block.encode ++ high :: low :: etx :: rest).getD (block.data.length + 11 - 1) 0 =
      etx := getD_trailer block (high :: low :: etx :: rest) 3
  have hhigh : (block.encode ++ high :: low :: etx :: rest).getD (block.data.length + 11 - 3) 0 =
      high := getD_trailer block (high :: low :: etx :: rest) 1
  have hlow : (block.encode ++ high :: low :: etx :: rest).getD (block.data.length + 11 - 2) 0 =
      low := getD_trailer block (high :: low :: etx :: rest) 2
  have htake : (block.encode ++ high :: low :: etx :: rest).take (block.data.length + 11) =
      block.encode ++ [high, low, etx] := by
    have hsplit : block.encode ++ high :: low :: etx :: rest =
        (block.encode ++ [high, low, etx]) ++ rest := by simp
    rw [hsplit]
    exact List.take_left' (by simp [hlength])
  have hheader : ([block.addressHigh, block.addressLow].all isDigit) = true := by
    simp [block.address.1, block.address.2]
  simp only [scanStep, hbyte, haddress, hdigits, hheader, all_isDigit_lengthDigits block.length,
    decimalValue_lengthDigits block.length, hetx, hhigh, hlow, htake, hremaining]
  rw [if_neg (by decide), if_neg (by decide), if_neg (by omega), if_neg (by decide),
    if_neg (by omega), if_neg (by decide)]

/-- The frame of a block as it is received. -/
def Block.received (block : Block) (high low : UInt8) (valid : Bool) (frameId offset : Nat) :
    Frame where
  frameId := frameId
  offset := offset
  raw := block.encode ++ [high, low, etx]
  address := latin1 [block.addressHigh, block.addressLow]
  frameClass := Char.ofNat block.frameClass.toNat
  data := block.data
  sequence := Char.ofNat block.sequence.toNat
  bccValid := valid

theorem accept_block (block : Block) (high low : UInt8) (expected : Int) :
    stream.accept cursor (block.encode ++ [high, low, etx]) block.data.length expected =
      let valid := ((bcc block.encode).toNat : Int) == expected
      let stream := if valid then stream else stream.issue s!"bcc_mismatch:{cursor}"
      if stream.frames.length < maxFrames then
        { stream with
          frames := stream.frames ++
            [block.received high low valid (stream.frames.length + 1) cursor] }
      else { stream with truncated := true } := by
  have hlength : (block.encode ++ [high, low, etx]).length = block.data.length + 11 := by
    rw [List.length_append, length_block]
    simp
  have hblock : (block.encode ++ [high, low, etx]).take (block.data.length + 11 - 3) =
      block.encode := List.take_left' (by rw [length_block]; omega)
  have hsequence : (block.encode ++ [high, low, etx]).getD (block.data.length + 11 - 4) 0 =
      block.sequence := getD_trailer block [high, low, etx] 0
  have haddress : ((block.encode ++ [high, low, etx]).drop 1).take 2 =
      [block.addressHigh, block.addressLow] := by rw [encode_append]; rfl
  have hclass : (block.encode ++ [high, low, etx]).getD 6 0 = block.frameClass := by
    rw [encode_append]; rfl
  have hdata : ((block.encode ++ [high, low, etx]).drop 7).take block.data.length =
      block.data := by
    rw [encode_append]
    exact List.take_left
  simp only [FramedStream.accept, hlength, hblock, hsequence, haddress, hclass, hdata,
    Block.received]

theorem scanStep_frame (frame : SentFrame) (rest : Bytes) :
    scanStep cursor (frame.encode ++ rest) stream =
      (some frame.encode.length,
        stream.accept cursor frame.encode frame.data.length (bcc frame.toBlock.encode).toNat) := by
  have hsplit : frame.encode ++ rest =
      frame.toBlock.encode ++ frame.bccHigh :: frame.bccLow :: etx :: rest := by
    simp [SentFrame.encode]
  rw [hsplit, scanStep_block, hexValue_of_digits frame.checked, length_encode]
  rfl

theorem accept_received (frame : SentFrame) (hframes : stream.frames.length < maxFrames) :
    stream.accept cursor frame.encode frame.data.length (bcc frame.toBlock.encode).toNat =
      { stream with
        frames := stream.frames ++ [frame.received (stream.frames.length + 1) cursor] } := by
  rw [SentFrame.encode, accept_block]
  simp only [beq_self_eq_true, if_true, if_pos hframes]
  rfl

/-- The scan of a sender's signals adds their frames and counts their ACKs. -/
theorem scan_encodeAll (signals : List Signal)
    (hframes : stream.frames.length + frameCount signals ≤ maxFrames) :
    scan (encodeAll signals) cursor 0 stream =
      { stream with
        frames := stream.frames ++ receivedFrames (stream.frames.length + 1) cursor signals
        ackCount := stream.ackCount + ackCount signals } := by
  induction signals generalizing cursor stream with
  | nil => simp [encodeAll, scan, receivedFrames, ackCount]
  | cons signal signals ih =>
    cases signal with
    | ack =>
      have hcount : frameCount (.ack :: signals) = frameCount signals := by simp [frameCount]
      have hacks : ackCount (.ack :: signals) = ackCount signals + 1 := by simp [ackCount]
      have hstep : scanStep cursor ([ack] ++ encodeAll signals) stream =
          (some [ack].length, { stream with ackCount := stream.ackCount + 1 }) := rfl
      rw [encodeAll_cons, show Signal.ack.encode = [ack] from rfl,
        scan_of_step (List.cons_ne_nil _ _) hstep, ih (by simpa [hcount] using hframes), hacks]
      simp only [receivedFrames, List.length_singleton, Nat.add_assoc, Nat.add_comm 1]
    | frame frame =>
      have hcount : frameCount (.frame frame :: signals) = frameCount signals + 1 := by
        simp [frameCount]
      have hacks : ackCount (.frame frame :: signals) = ackCount signals := by simp [ackCount]
      have hroom : stream.frames.length < maxFrames := by omega
      have hne : frame.encode ≠ [] := by
        have hlength := length_encode frame
        intro h
        rw [h] at hlength
        simp at hlength
      rw [encodeAll_cons, show (Signal.frame frame).encode = frame.encode from rfl,
        scan_of_step hne (scanStep_frame frame _), accept_received frame hroom,
        ih (by rw [List.length_append, List.length_singleton]; omega), hacks]
      simp only [receivedFrames, List.append_assoc, List.length_append, List.length_singleton,
        List.singleton_append]

theorem frameStream_of_fits {payload : Bytes} (h : payload.length ≤ maxInputBytes)
    (hissues : (scan payload 0 0 {}).issues = []) : frameStream payload = scan payload 0 0 {} := by
  have hview : payload.take maxInputBytes = payload := List.take_of_length_le h
  have htruncated : decide (maxInputBytes < payload.length) = false :=
    decide_eq_false (by omega)
  simp only [frameStream, hview, htruncated, hissues, List.length_nil, Nat.lt_irrefl, if_false]
  rw [if_neg (by decide)]
  exact congrArg (fun issues => { scan payload 0 0 {} with issues := issues }) hissues.symm

/-- Bytes past the input limit are reported. -/
theorem issues_of_overlong {payload : Bytes} (h : maxInputBytes < payload.length) :
    (frameStream payload).issues ≠ [] := by
  have hview : (payload.take maxInputBytes).length < payload.length := by
    rw [List.length_take]
    omega
  simp only [frameStream, if_pos hview]
  exact List.append_ne_nil_of_right_ne_nil _ (List.cons_ne_nil _ _)

/-- Every frame comes back, in order and at its offset, and only the frames:
data may hold any bytes, those of another frame included. -/
theorem frameStream_encodeAll (signals : List Signal) (hframes : frameCount signals ≤ maxFrames)
    (hbytes : (encodeAll signals).length ≤ maxInputBytes) :
    frameStream (encodeAll signals) =
      { frames := receivedFrames 1 0 signals, ackCount := ackCount signals, issues := [],
        truncated := false } := by
  have hscan := @scan_encodeAll 0 {} signals (by simpa using hframes)
  rw [frameStream_of_fits hbytes (by rw [hscan]), hscan]
  simp

/-- A frame whose data are the bytes STX and ACK. -/
def sampleFrame : SentFrame where
  addressHigh := 48
  addressLow := 49
  frameClass := 78
  data := [stx, ack]
  sequence := 48
  bccHigh := 52
  bccLow := 66
  address := by decide
  length := by decide
  checked := by decide

theorem frameStream_encodeAll_sample :
    frameStream (encodeAll [.ack, .frame sampleFrame, .ack]) =
      { frames := [sampleFrame.received 1 1], ackCount := 2, issues := [], truncated := false } :=
  frameStream_encodeAll [.ack, .frame sampleFrame, .ack] (by decide) (by decide)

/-- ACKs are not bounded by the frame limit: one more than the input limit is
cut off, without any frame. -/
theorem acks_exceed_input_limit : ∃ signals, frameCount signals ≤ maxFrames ∧
    (frameStream (encodeAll signals)).issues ≠ [] := by
  refine ⟨List.replicate (maxInputBytes + 1) .ack, ?_, issues_of_overlong ?_⟩
  · rw [frameCount, List.countP_replicate, if_neg (by decide)]
    exact Nat.zero_le _
  · rw [encodeAll, List.length_flatMap, List.map_replicate, List.sum_replicate_nat]
    show maxInputBytes < (maxInputBytes + 1) * 1
    omega

end RetailPrintGuard.Parser.RchFraming
