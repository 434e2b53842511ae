import RetailPrintGuard.Common.Formats

/-! # Canonical hash-chain helpers for tamper-evident records -/
namespace RetailPrintGuard.Common.HashChain
open RetailPrintGuard.Library RetailPrintGuard.Common.Formats

def zeroHash : String := String.ofList (List.replicate 64 '0')

def hexDigitValue (c : Char) : Nat :=
  if '0' ≤ c ∧ c ≤ '9' then c.toNat - '0'.toNat
  else if 'a' ≤ c ∧ c ≤ 'f' then c.toNat - 'a'.toNat + 10
  else c.toNat - 'A'.toNat + 10

/-- `bytes.fromhex` on hexadecimal digits -/
def fromHex : List Char → Bytes
  | high :: low :: rest => UInt8.ofNat (16 * hexDigitValue high + hexDigitValue low) :: fromHex rest
  | _ => []

/-- A SHA-256 digest in hexadecimal. -/
structure Digest where
  text : String
  digest : isSha256 text = true
deriving DecidableEq

theorem isSha256_zeroHash : isSha256 zeroHash = true := by decide

def zeroDigest : Digest := ⟨zeroHash, isSha256_zeroHash⟩

section
variable (fmt : Codec)

/-- `chained_hash` -/
def chainedHash (record : Json) (previousHash : Option String) : Except String String :=
  let parent :=
    match previousHash with
    | some text => if text = "" then zeroHash else text.toLower
    | none => zeroHash
  if parent.length ≠ 64 ∨ parent.toList.any fun c => !"0123456789abcdef".toList.contains c then
    .error "previous_hash is not a SHA-256 digest"
  else .ok (fmt.sha256 (fromHex parent.toList ++ record.dumps))

/-- `chained_hash` after a digest. -/
def chainedDigest (record : Json) (previous : Digest) : Digest :=
  ⟨fmt.sha256 (fromHex previous.text.toList ++ record.dumps), fmt.sha256_hex _⟩

end

/-- What `isSha256` allows in a digest is lower-case hexadecimal. -/
def isHexChar (c : Char) : Bool := c.isDigit || ('a' ≤ c && c ≤ 'f')

theorem isHexChar_lt {c : Char} (h : isHexChar c = true) : c.toNat < 128 := by
  simp only [isHexChar, Char.isDigit, Bool.or_eq_true, Bool.and_eq_true, decide_eq_true_eq,
    ge_iff_le] at h
  rcases h with h | h
  · exact Nat.lt_of_le_of_lt (UInt32.le_iff_toNat_le.mp h.2) (by decide)
  · exact Nat.lt_of_le_of_lt (UInt32.le_iff_toNat_le.mp h.2) (by decide)

theorem hexChar {c : Char} (h : isHexChar c = true) :
    c.toLower = c ∧ c ∈ "0123456789abcdef".toList := by
  have hall : ∀ n < 128, isHexChar (Char.ofNat n) = true →
      (Char.ofNat n).toLower = Char.ofNat n ∧ Char.ofNat n ∈ "0123456789abcdef".toList := by
    decide
  have hc := hall c.toNat (isHexChar_lt h)
  rw [Char.ofNat_toNat] at hc
  exact hc h

/-- A hexadecimal digit is read back from its value. -/
theorem hexDigit_hexDigitValue {c : Char} (h : isHexChar c = true) :
    hexDigitValue c < 16 ∧ Json.hexDigit (hexDigitValue c) = c := by
  have hall : ∀ n < 128, isHexChar (Char.ofNat n) = true → hexDigitValue (Char.ofNat n) < 16 ∧
      Json.hexDigit (hexDigitValue (Char.ofNat n)) = Char.ofNat n := by decide
  have hc := hall c.toNat (isHexChar_lt h)
  rw [Char.ofNat_toNat] at hc
  exact hc h

theorem hexByte_injective {high low high' low' : Char} (hh : isHexChar high = true)
    (hl : isHexChar low = true) (hh' : isHexChar high' = true) (hl' : isHexChar low' = true)
    (h : UInt8.ofNat (16 * hexDigitValue high + hexDigitValue low) =
      UInt8.ofNat (16 * hexDigitValue high' + hexDigitValue low')) : high = high' ∧ low = low' := by
  obtain ⟨hhigh, hhigh'⟩ := hexDigit_hexDigitValue hh
  obtain ⟨hlow, hlow'⟩ := hexDigit_hexDigitValue hl
  obtain ⟨hotherHigh, hotherHigh'⟩ := hexDigit_hexDigitValue hh'
  obtain ⟨hotherLow, hotherLow'⟩ := hexDigit_hexDigitValue hl'
  have hvalue := congrArg UInt8.toNat h
  simp only [UInt8.toNat_ofNat'] at hvalue
  have hvalues : hexDigitValue high = hexDigitValue high' ∧
      hexDigitValue low = hexDigitValue low' := by omega
  constructor
  · rw [← hhigh', ← hotherHigh', hvalues.1]
  · rw [← hlow', ← hotherLow', hvalues.2]

theorem fromHex_injective : ∀ {s t : List Char}, s.length = t.length → s.length % 2 = 0 →
    (∀ c ∈ s, isHexChar c = true) → (∀ c ∈ t, isHexChar c = true) → fromHex s = fromHex t → s = t
  | [], [], _, _, _, _, _ => rfl
  | [_], [_], _, heven, _, _, _ => absurd heven Nat.one_ne_zero
  | high :: low :: s, high' :: low' :: t, hlength, heven, hs, ht, h => by
    obtain ⟨hbyte, hrest⟩ := List.cons.inj h
    obtain ⟨rfl, rfl⟩ := hexByte_injective (hs high (by simp)) (hs low (by simp))
      (ht high' (by simp)) (ht low' (by simp)) hbyte
    have heven : s.length % 2 = 0 := by
      rw [List.length_cons, List.length_cons] at heven
      omega
    rw [fromHex_injective (by simpa using hlength) heven
      (fun c hc => hs c (by simp [hc])) (fun c hc => ht c (by simp [hc])) hrest]

theorem length_fromHex : ∀ s : List Char, (fromHex s).length = s.length / 2
  | [] => rfl
  | [_] => by simp [fromHex]
  | _ :: _ :: s => by
    rw [fromHex, List.length_cons, length_fromHex s, List.length_cons, List.length_cons]
    omega

theorem Digest.bytes_injective {a b : Digest} (h : fromHex a.text.toList = fromHex b.text.toList) :
    a = b := by
  have ha := a.digest
  have hb := b.digest
  rw [isSha256, Bool.and_eq_true, beq_iff_eq, List.all_eq_true] at ha hb
  have hlength : a.text.toList.length = 64 := ha.1
  have hlength' : b.text.toList.length = 64 := hb.1
  have htext := fromHex_injective (hlength.trans hlength'.symm) (by rw [hlength]) ha.2 hb.2 h
  obtain ⟨text, digest⟩ := a
  obtain ⟨text', digest'⟩ := b
  obtain rfl := String.toList_inj.mp htext
  rfl

theorem Digest.length_bytes (a : Digest) : (fromHex a.text.toList).length = 32 := by
  have ha := a.digest
  rw [isSha256, Bool.and_eq_true, beq_iff_eq] at ha
  rw [length_fromHex, show a.text.toList.length = 64 from ha.1]

theorem toLower_digest (previous : Digest) : previous.text.toLower = previous.text := by
  have hchars := previous.digest
  rw [isSha256, Bool.and_eq_true, List.all_eq_true] at hchars
  show previous.text.map Char.toLower = previous.text
  rw [← String.toList_inj, String.toList_map]
  refine (List.map_congr_left fun c hc => (hexChar (hchars.2 c hc)).1).trans (List.map_id _)

theorem chainedHash_digest (fmt : Codec) (record : Json) (previous : Digest) :
    chainedHash fmt record (some previous.text) = .ok (chainedDigest fmt record previous).text := by
  have hchars := previous.digest
  rw [isSha256, Bool.and_eq_true, beq_iff_eq, List.all_eq_true] at hchars
  have hne : previous.text ≠ "" := fun h => by
    rw [h] at hchars
    exact absurd hchars.1 (by decide)
  unfold chainedHash
  simp only [hne, if_false, toLower_digest]
  rw [if_neg]
  · rfl
  · rintro (hlength | hhex)
    · exact hlength hchars.1
    · obtain ⟨c, hc, hnot⟩ := List.any_eq_true.mp hhex
      rw [Bool.not_eq_true', ← Bool.not_eq_true, List.contains_iff_mem] at hnot
      exact hnot (hexChar (hchars.2 c hc)).2

end RetailPrintGuard.Common.HashChain
