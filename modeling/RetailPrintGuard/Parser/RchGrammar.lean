import RetailPrintGuard.Parser.RchAccounting

/-! # What the framing accepts

A stream without an issue holds ACKs and frames only. The block check of a frame
is read as a signed number, which a blank or a sign may help to tell. -/
namespace RetailPrintGuard.Parser.RchGrammar
open RetailPrintGuard.Common.Formats
open RetailPrintGuard.Parser.RchFraming RetailPrintGuard.Parser.RchAccounting

/-- One digit tells the check, with a blank or a sign in place of the other. -/
def LooseCheck (high low : UInt8) (check : Nat) : Prop :=
  (hexDigit high = some check ∧ isBlank low = true) ∨
    ((isBlank high = true ∨ high = 43) ∧ hexDigit low = some check) ∨
    (high = 45 ∧ hexDigit low = some 0 ∧ check = 0)

/-- A frame with the right check in a wrong writing. -/
structure LooseFrame extends Block where
  bccHigh : UInt8
  bccLow : UInt8
  loose : LooseCheck bccHigh bccLow (bcc toBlock.encode).toNat

def LooseFrame.encode (frame : LooseFrame) : Bytes :=
  frame.toBlock.encode ++ [frame.bccHigh, frame.bccLow, etx]

/-- What stands on the wire, with frames whose check is written loosely. -/
inductive Accepted where
  | signal (signal : Signal)
  | loose (frame : LooseFrame)

namespace Accepted

def encode : Accepted → Bytes
  | signal s => s.encode
  | loose frame => frame.encode

def isFrame : Accepted → Bool
  | signal .ack => false
  | _ => true

def isLoose : Accepted → Bool
  | loose _ => true
  | signal _ => false

end Accepted

def acceptedBytes (parts : List Accepted) : Bytes := parts.flatMap Accepted.encode

/-- The payload is within the limits, and one of its frames has its check in a
wrong writing. -/
def LooselyChecked (payload : Bytes) : Prop :=
  payload.length ≤ maxInputBytes ∧ ∃ parts : List Accepted, payload = acceptedBytes parts ∧
    parts.countP Accepted.isFrame ≤ maxFrames ∧ ∃ part ∈ parts, part.isLoose = true

/-- A payload without an issue and not truncated is in the grammar. -/
def CleanIsGrammar (payload : Bytes) : Prop :=
  (frameStream payload).issues = [] → (frameStream payload).truncated = false →
    ∃ signals, payload = encodeAll signals

/-! ## Checks -/

variable {high low : UInt8} {check : Nat}

theorem hexDigit_lt {digit : Nat} (h : hexDigit high = some digit) : digit < 16 := by
  unfold hexDigit at h
  simp only [UInt8.le_iff_toNat_le] at h
  split at h
  · next hrange =>
    have hle : high.toNat ≤ 57 := hrange.2
    grind
  · split at h
    · next hrange =>
      have hle : high.toNat ≤ 70 := hrange.2
      grind
    · split at h
      · next hrange =>
        have hle : high.toNat ≤ 102 := hrange.2
        grind
      · simp at h

theorem hexDigit_of_isBlank (h : isBlank low = true) : hexDigit low = none := by
  obtain rfl | ⟨-, hle⟩ : low = 32 ∨ (9 ≤ low ∧ low ≤ 13) := by simpa [isBlank] using h
  · rfl
  · have hsmall : low.toNat ≤ 13 := UInt8.le_iff_toNat_le.mp hle
    have hbelow : ∀ bound : UInt8, 13 < bound.toNat → ¬ bound ≤ low := fun bound hbound hge => by
      have hge := UInt8.le_iff_toNat_le.mp hge
      omega
    unfold hexDigit
    rw [if_neg fun hin => hbelow 48 (by decide) hin.1, if_neg fun hin => hbelow 65 (by decide) hin.1,
      if_neg fun hin => hbelow 97 (by decide) hin.1]

theorem looseCheck_not_digits (h : LooseCheck high low check) :
    ¬ ((hexDigit high).isSome = true ∧ (hexDigit low).isSome = true) := by
  rintro ⟨hhigh, hlow⟩
  obtain ⟨-, hblank⟩ | ⟨hblank | rfl, -⟩ | ⟨rfl, -⟩ := h
  · rw [hexDigit_of_isBlank hblank] at hlow
    exact absurd hlow Bool.false_ne_true
  · rw [hexDigit_of_isBlank hblank] at hhigh
    exact absurd hhigh Bool.false_ne_true
  · exact absurd hhigh (by decide)
  · exact absurd hhigh (by decide)

/-- A check is read where two digits tell it, or one and a blank or a sign. -/
theorem hexValue_eq_check (hcheck : check < 256) : hexValue high low = some (check : Int) ↔
    (hexDigit high = some (check / 16) ∧ hexDigit low = some (check % 16)) ∨
      LooseCheck high low check := by
  constructor
  · intro h
    unfold hexValue at h
    split at h
    · next x y hx hy =>
      have hlow := hexDigit_lt hy
      have hvalue : 16 * x + y = check := by
        have hvalue := Option.some.inj h
        omega
      refine Or.inl ⟨?_, ?_⟩
      · rw [hx, show check / 16 = x by omega]
      · rw [hy, show check % 16 = y by omega]
    · next x hx _ =>
      split at h
      · next hblank =>
        have hvalue := Option.some.inj h
        rw [show x = check by omega] at hx
        exact Or.inr (Or.inl ⟨hx, hblank⟩)
      · simp at h
    · next y _ hy =>
      split at h
      · next hsign =>
        have hvalue := Option.some.inj h
        rw [show y = check by omega] at hy
        have hplace : isBlank high = true ∨ high = 43 := by simpa using hsign
        exact Or.inr (Or.inr (Or.inl ⟨hplace, hy⟩))
      · split at h
        · next hminus =>
          have hvalue := Option.some.inj h
          rw [show y = 0 by omega] at hy
          have hhigh : high = 45 := by simpa using hminus
          exact Or.inr (Or.inr (Or.inr ⟨hhigh, hy, by omega⟩))
        · simp at h
    · simp at h
  · rintro (h | ⟨hx, hblank⟩ | ⟨hsign, hy⟩ | ⟨rfl, hy, rfl⟩)
    · exact hexValue_of_digits h
    · rw [hexValue, hx, hexDigit_of_isBlank hblank]
      simp [hblank]
    · have hnone : hexDigit high = none := by
        obtain hblank | rfl := hsign
        · exact hexDigit_of_isBlank hblank
        · rfl
      rw [hexValue, hnone, hy]
      simp [hsign]
    · rw [hexValue, hy]
      rfl

/-! ## Accepted bytes as stretches -/

def SentFrame.envelope (sent : SentFrame) : Envelope :=
  { sent.toBlock with bccHigh := sent.bccHigh, bccLow := sent.bccLow }

def LooseFrame.envelope (frame : LooseFrame) : Envelope :=
  { frame.toBlock with bccHigh := frame.bccHigh, bccLow := frame.bccLow }

def Accepted.stretch : Accepted → Stretch
  | signal .ack => .ack
  | signal (.frame sent) => .envelope (SentFrame.envelope sent)
  | loose frame => .envelope frame.envelope

variable {cursor : Nat} {stream : FramedStream} {parts others : List Accepted} {part : Accepted}
variable {payload : Bytes}

theorem bytes_stretch (part : Accepted) : part.stretch.bytes = part.encode := by
  match part with
  | .signal .ack => rfl
  | .signal (.frame sent) => rfl
  | .loose frame => rfl

theorem joined_stretches (parts : List Accepted) :
    joined (parts.map Accepted.stretch) = acceptedBytes parts := by
  rw [joined, List.flatMap_map]
  exact List.flatMap_congr fun part _ => bytes_stretch part

theorem valid_iff {e : Envelope} : e.valid = true ↔
    (hexDigit e.bccHigh = some ((bcc e.toBlock.encode).toNat / 16) ∧
        hexDigit e.bccLow = some ((bcc e.toBlock.encode).toNat % 16)) ∨
      LooseCheck e.bccHigh e.bccLow (bcc e.toBlock.encode).toNat := by
  rw [Envelope.valid, beq_iff_eq]
  exact hexValue_eq_check (UInt8.toNat_lt _)

theorem issue_eq_none_of_valid {e : Envelope} {offset : Nat} (h : e.valid = true) :
    (Stretch.envelope e).issue offset = none ∧ (Stretch.envelope e).isFrame = true := by
  have hexpected := beq_iff_eq.mp h
  simp [Stretch.issue, Stretch.isFrame, Stretch.frame, hexpected, h]

theorem stretch_spec (part : Accepted) (offset : Nat) :
    part.stretch.issue offset = none ∧ part.stretch.isFrame = part.isFrame := by
  match part with
  | .signal .ack => exact ⟨rfl, rfl⟩
  | .signal (.frame sent) =>
    exact issue_eq_none_of_valid (valid_iff.mpr (Or.inl sent.checked))
  | .loose frame => exact issue_eq_none_of_valid (valid_iff.mpr (Or.inr frame.loose))

/-- The scanner goes over accepted parts in turn. -/
theorem scan_parts (parts : List Accepted) : scan (acceptedBytes parts) cursor 0 stream =
    turns stream cursor (parts.map Accepted.stretch) := by
  induction parts generalizing cursor stream with
  | nil => rfl
  | cons part parts ih =>
    have hstep : scanStep cursor (part.stretch.bytes ++ acceptedBytes parts) stream =
        (some part.stretch.bytes.length, turn stream cursor part.stretch) := by
      match part with
      | .signal .ack => exact scanStep_ack _
      | .signal (.frame sent) => exact scanStep_envelope (SentFrame.envelope sent) _
      | .loose frame => exact scanStep_envelope frame.envelope _
    have hcons : acceptedBytes (part :: parts) = part.stretch.bytes ++ acceptedBytes parts := by
      rw [bytes_stretch]
      rfl
    rw [hcons, scan_of_step (bytes_ne_nil _) hstep, ih]
    rfl

/-- Accepted bytes within the limits are clean. -/
theorem clean_of_parts (hbytes : (acceptedBytes parts).length ≤ maxInputBytes)
    (hframes : parts.countP Accepted.isFrame ≤ maxFrames) :
    (frameStream (acceptedBytes parts)).issues = [] ∧
      (frameStream (acceptedBytes parts)).truncated = false := by
  have hview : (acceptedBytes parts).take maxInputBytes = acceptedBytes parts :=
    List.take_of_length_le hbytes
  have haccounts : Accounts (acceptedBytes parts) (parts.map Accepted.stretch) := by
    refine accounts_of (hview.trans (joined_stretches parts).symm) fun cursor stream => ?_
    rw [hview]
    exact scan_parts parts
  have hquiet : ∀ offset, issuesFrom offset (parts.map Accepted.stretch) = [] := by
    clear hbytes hframes hview haccounts
    induction parts with
    | nil => exact fun _ => rfl
    | cons part parts ih =>
      intro offset
      rw [List.map_cons, issuesFrom_cons, (stretch_spec part offset).1, ih]
      rfl
  have hcount : (parts.map Accepted.stretch).countP Stretch.isFrame =
      parts.countP Accepted.isFrame := by
    rw [List.countP_map]
    exact List.countP_congr fun part _ => by rw [Function.comp, (stretch_spec part 0).2]
  have hwithin : ¬ maxInputBytes < (acceptedBytes parts).length := by omega
  refine ⟨?_, ?_⟩
  · rw [haccounts.issues, hquiet, if_neg (by decide), if_neg hwithin]
    rfl
  · rw [haccounts.truncated, hcount, decide_eq_false hwithin, decide_eq_false (by omega)]
    rfl

/-! ## One reading only -/

theorem envelope_append_inj {a b : Envelope} {x y : Bytes}
    (h : a.encode ++ x = b.encode ++ y) : a = b ∧ x = y := by
  have hdigits : lengthDigits a.data.length = lengthDigits b.data.length := by
    have htake := congrArg (fun bytes => (bytes.drop 3).take 3) h
    simp only [Envelope.encode, List.append_assoc, encode_append] at htake
    exact htake
  have hdata : a.data.length = b.data.length := by
    rw [← decimalValue_lengthDigits a.length, hdigits, decimalValue_lengthDigits b.length]
  have hlength : a.encode.length = b.encode.length := by
    rw [length_envelope, length_envelope, hdata]
  obtain ⟨hencode, hrest⟩ := List.append_inj h hlength
  refine ⟨?_, hrest⟩
  obtain ⟨⟨aHigh, aLow, aClass, aData, aSequence, aAddress, aLength⟩, aBccHigh, aBccLow⟩ := a
  obtain ⟨⟨bHigh, bLow, bClass, bData, bSequence, bAddress, bLength⟩, bBccHigh, bBccLow⟩ := b
  simp only at hdata
  simp only [Envelope.encode, Block.encode, hdata, lengthDigits, List.cons_append,
    List.nil_append, List.append_assoc, List.cons.injEq, true_and] at hencode
  obtain ⟨rfl, rfl, rfl, hbody⟩ := hencode
  obtain ⟨rfl, htrailer⟩ := List.append_inj hbody hdata
  simp only [List.cons.injEq, and_true] at htrailer
  obtain ⟨rfl, rfl, rfl⟩ := htrailer
  rfl

theorem stretch_cons_inj {a b : Stretch} {x y : Bytes}
    (ha : a = .ack ∨ ∃ e, a = .envelope e) (hb : b = .ack ∨ ∃ e, b = .envelope e)
    (h : a.bytes ++ x = b.bytes ++ y) : a = b ∧ x = y := by
  obtain rfl | ⟨e, rfl⟩ := ha
  · obtain rfl | ⟨e', rfl⟩ := hb
    · exact ⟨rfl, (List.cons.inj h).2⟩
    · exact absurd (List.cons.inj h).1 (by decide)
  · obtain rfl | ⟨e', rfl⟩ := hb
    · exact absurd (List.cons.inj h).1 (by decide)
    · obtain ⟨rfl, hrest⟩ := envelope_append_inj h
      exact ⟨rfl, hrest⟩

theorem stretch_kind (part : Accepted) :
    part.stretch = .ack ∨ ∃ e, part.stretch = .envelope e := by
  match part with
  | .signal .ack => exact Or.inl rfl
  | .signal (.frame sent) => exact Or.inr ⟨_, rfl⟩
  | .loose frame => exact Or.inr ⟨_, rfl⟩

/-- Accepted bytes are divided in one way. -/
theorem stretches_inj (h : acceptedBytes parts = acceptedBytes others) :
    parts.map Accepted.stretch = others.map Accepted.stretch := by
  have hcons : ∀ part parts, acceptedBytes (part :: parts) =
      part.stretch.bytes ++ acceptedBytes parts := fun part parts => by
    rw [bytes_stretch]
    rfl
  induction parts generalizing others with
  | nil =>
    cases others with
    | nil => rfl
    | cons other others =>
      rw [hcons] at h
      exact absurd (List.append_eq_nil_iff.mp h.symm).1 (bytes_ne_nil _)
  | cons part parts ih =>
    cases others with
    | nil =>
      rw [hcons] at h
      exact absurd (List.append_eq_nil_iff.mp h).1 (bytes_ne_nil _)
    | cons other others =>
      rw [hcons, hcons] at h
      obtain ⟨hhead, hrest⟩ := stretch_cons_inj (stretch_kind part) (stretch_kind other) h
      rw [List.map_cons, List.map_cons, hhead, ih hrest]

/-- A check in a wrong writing is not also one in two digits. -/
theorem loose_ne_sent (frame : LooseFrame) (sent : SentFrame) :
    frame.envelope ≠ SentFrame.envelope sent := by
  intro h
  have hhigh : frame.bccHigh = sent.bccHigh := congrArg Envelope.bccHigh h
  have hlow : frame.bccLow = sent.bccLow := congrArg Envelope.bccLow h
  refine looseCheck_not_digits frame.loose ⟨?_, ?_⟩
  · rw [hhigh, sent.checked.1]
    rfl
  · rw [hlow, sent.checked.2]
    rfl

theorem no_signals_of_loose (hloose : ∃ part ∈ parts, part.isLoose = true) :
    ¬ ∃ signals, acceptedBytes parts = encodeAll signals := by
  rintro ⟨signals, h⟩
  have hsignals : encodeAll signals = acceptedBytes (signals.map Accepted.signal) := by
    rw [encodeAll, acceptedBytes, List.flatMap_map]
    rfl
  obtain ⟨part, hm, hpart⟩ := hloose
  have hmem : part.stretch ∈ (signals.map Accepted.signal).map Accepted.stretch := by
    rw [← stretches_inj (h.trans hsignals)]
    exact List.mem_map_of_mem hm
  rw [List.map_map] at hmem
  obtain ⟨signal, -, heq⟩ := List.mem_map.mp hmem
  cases part with
  | signal => cases hpart
  | loose frame =>
    cases signal with
    | ack => cases heq
    | frame sent => exact loose_ne_sent frame sent (Stretch.envelope.inj heq).symm

/-! ## Clean streams -/

/-- A stretch without an issue is an accepted part. -/
theorem exists_part {stretch : Stretch} {offset : Nat} (h : stretch.issue offset = none) :
    ∃ part : Accepted, part.stretch = stretch := by
  match stretch with
  | .ack => exact ⟨.signal .ack, rfl⟩
  | .noise .. | .stray .malformedHeader | .stray .missingEtx | .unfinished .header _
  | .unfinished .frame _ => simp [Stretch.issue] at h
  | .envelope e =>
    have hvalid : e.valid = true := by
      rw [Stretch.issue] at h
      split at h
      · simp at h
      · by_contra hinvalid
        simp [hinvalid] at h
    obtain hchecked | hloose := valid_iff.mp hvalid
    · let sent : SentFrame :=
        { e.toBlock with
          bccHigh := e.bccHigh
          bccLow := e.bccLow
          checked := hchecked }
      exact ⟨.signal (.frame sent), rfl⟩
    · let frame : LooseFrame :=
        { e.toBlock with
          bccHigh := e.bccHigh
          bccLow := e.bccLow
          loose := hloose }
      exact ⟨.loose frame, rfl⟩

theorem exists_parts {stretches : List Stretch} {offset : Nat}
    (h : issuesFrom offset stretches = []) :
    ∃ parts : List Accepted, parts.map Accepted.stretch = stretches := by
  induction stretches generalizing offset with
  | nil => exact ⟨[], rfl⟩
  | cons stretch stretches ih =>
    rw [issuesFrom_cons, List.append_eq_nil_iff, Option.toList_eq_nil_iff] at h
    obtain ⟨part, hpart⟩ := exists_part h.1
    obtain ⟨parts, hparts⟩ := ih h.2
    exact ⟨part :: parts, by rw [List.map_cons, hpart, hparts]⟩

theorem Accounts.issues_nil {stretches : List Stretch} (h : Accounts payload stretches)
    (hclean : (frameStream payload).issues = []) :
    issuesFrom 0 stretches = [] ∧ payload.length ≤ maxInputBytes := by
  have hissues := h.issues
  rw [hclean] at hissues
  obtain ⟨hread, hinput⟩ := List.append_eq_nil_iff.mp hissues.symm
  refine ⟨?_, ?_⟩
  · split at hread
    · simp at hread
    · exact hread
  · by_contra hover
    rw [if_pos (by omega)] at hinput
    simp at hinput

/-- What the framing accepts without an issue is in the grammar, or has a check
in a wrong writing. -/
theorem parts_of_clean (hclean : (frameStream payload).issues = [])
    (hwhole : (frameStream payload).truncated = false) :
    payload.length ≤ maxInputBytes ∧ ∃ parts : List Accepted, payload = acceptedBytes parts ∧
      parts.countP Accepted.isFrame ≤ maxFrames := by
  obtain ⟨stretches, haccounts⟩ := exists_accounts payload
  obtain ⟨hquiet, hbytes⟩ := Accounts.issues_nil haccounts hclean
  obtain ⟨parts, rfl⟩ := exists_parts hquiet
  refine ⟨hbytes, parts, ?_, ?_⟩
  · rw [← joined_stretches, ← haccounts.split, List.take_of_length_le hbytes]
  · have htruncated := haccounts.truncated
    rw [hwhole, List.countP_map] at htruncated
    have hcount : parts.countP (Stretch.isFrame ∘ Accepted.stretch) =
        parts.countP Accepted.isFrame :=
      List.countP_congr fun part _ => by rw [Function.comp, (stretch_spec part 0).2]
    rw [hcount] at htruncated
    simp at htruncated
    omega

/-- Clean acceptance is the grammar exactly where no check is written with a
blank or a sign. -/
theorem clean_is_grammar_iff (payload : Bytes) :
    CleanIsGrammar payload ↔ ¬ LooselyChecked payload := by
  constructor
  · rintro hgrammar ⟨hbytes, parts, rfl, hframes, hloose⟩
    obtain ⟨hclean, hwhole⟩ := clean_of_parts hbytes hframes
    exact no_signals_of_loose hloose (hgrammar hclean hwhole)
  · intro hstrict hclean hwhole
    obtain ⟨hbytes, parts, rfl, hframes⟩ := parts_of_clean hclean hwhole
    have hall : ∀ part ∈ parts, part.isLoose = false := by
      intro part hm
      by_contra hloose
      exact hstrict ⟨hbytes, parts, rfl, hframes, part, hm, by simpa using hloose⟩
    clear hstrict hclean hwhole hbytes hframes
    induction parts with
    | nil => exact ⟨[], rfl⟩
    | cons part parts ih =>
      obtain ⟨signals, hsignals⟩ := ih fun other hm => hall other (List.mem_cons_of_mem _ hm)
      match part, hall part List.mem_cons_self with
      | .signal signal, _ =>
        refine ⟨signal :: signals, ?_⟩
        rw [encodeAll_cons, ← hsignals]
        rfl

/-- The command =K with its check 0C, written with a blank. -/
def blankChecked : LooseFrame where
  toBlock := openBlock
  bccHigh := 32
  bccLow := 67
  loose := Or.inr (Or.inl ⟨Or.inl (by decide), by decide⟩)

/-- The blank passes for a digit. -/
theorem blankChecked_accepted : ¬ CleanIsGrammar blankChecked.encode := by
  intro h
  obtain ⟨signals, hsignals⟩ := h (by decide +kernel) (by decide +kernel)
  refine @no_signals_of_loose [.loose blankChecked] ⟨_, List.mem_singleton_self _, rfl⟩
    ⟨signals, ?_⟩
  rw [← hsignals]
  exact List.append_nil _

end RetailPrintGuard.Parser.RchGrammar
