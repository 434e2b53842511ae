import Mathlib.Tactic.Ring
import RetailPrintGuard.Library.Bitmap
import RetailPrintGuard.Parser.EscposSegments

/-! # ESC/POS bit images

The printer takes a bit image in strips, column by column. Strips of one form,
with a line feed in dots between them, are put together to one image. -/
namespace RetailPrintGuard.Parser.EscposRaster
open RetailPrintGuard.Library.Bitmap
open RetailPrintGuard.Parser.EscposCommands
open RetailPrintGuard.Parser.EscposSegments

def maxRasterImages : Nat := 4
def maxRasterPixels : Nat := 4000000

/-- `_RasterImage` -/
structure RasterImage where
  width : Nat
  height : Nat
  packedBits : Bytes
  sourceOffset : Nat
  sourceLength : Nat
  stripCount : Nat
deriving DecidableEq

def rowStride (width : Nat) : Nat := (width + 7) / 8

/-- `pixel_is_black`; there is none out of range. -/
def RasterImage.pixelIsBlack (image : RasterImage) (x y : Nat) : Option Bool :=
  image.packedBits[y * rowStride image.width + x / 8]?.map fun value =>
    value.toNat &&& (0x80 >>> (x % 8)) != 0

/-! ## Strips -/

section
variable (width height bytesPerColumn : Nat) (payload : Bytes)

/-- One bit of a byte of a column. -/
def decodeBit (x band : Nat) (value : UInt8) (packed : Bytes) (bit : Nat) : Option Bytes :=
  let y := band * 8 + bit
  if y < height ∧ value.toNat &&& (0x80 >>> bit) ≠ 0 then
    orByte packed (y * rowStride width + x / 8) (0x80 >>> (x % 8))
  else some packed

def decodeBand (x : Nat) (packed : Bytes) (band : Nat) : Option Bytes :=
  payload[x * bytesPerColumn + band]?.bind fun value =>
    (List.range 8).foldlM (decodeBit width height x band value) packed

def decodeColumn (packed : Bytes) (x : Nat) : Option Bytes :=
  (List.range bytesPerColumn).foldlM (decodeBand width height bytesPerColumn payload x) packed

/-- `_decode_esc_star_strip` -/
def decodeEscStarStrip : Option Bytes :=
  (List.range width).foldlM (decodeColumn width height bytesPerColumn payload)
    (List.replicate (rowStride width * height) 0)

end

structure Strip where
  mode : UInt8
  width : Nat
  height : Nat
  packed : Bytes
  stop : Nat
deriving DecidableEq

/-- `payload[cursor : cursor + 2] == b"\x1b*"` -/
def isEscStar (payload : Bytes) (cursor : Nat) : Bool := pairAt 0x1B 0x2A payload cursor

def isEscJ (payload : Bytes) (cursor : Nat) : Bool := pairAt 0x1B 0x4A payload cursor

def columnBytes (mode : UInt8) : Nat := if mode ∈ [32, 33] then 3 else 1

/-- `_esc_star_strip_at`: no strip is told apart from an index out of range. -/
def escStarStripAt (payload : Bytes) (cursor : Nat) : Option (Option Strip) :=
  if payload.length < cursor + 5 ∨ !isEscStar payload cursor then some none
  else do
    let mode ← payload[cursor + 2]?
    if mode ∉ [0, 1, 32, 33] then return none
    let low ← payload[cursor + 3]?
    let high ← payload[cursor + 4]?
    let width := low.toNat + (high.toNat <<< 8)
    let bytesPerColumn := columnBytes mode
    let height := bytesPerColumn * 8
    let stop := cursor + 5 + width * bytesPerColumn
    if width < 1 ∨ maxRasterPixels < width * height ∨ payload.length < stop then return none
    let packed ← decodeEscStarStrip width height bytesPerColumn (slice payload (cursor + 5) stop)
    return some { mode, width, height, packed, stop }

/-! ## Groups of strips -/

/-- The inner loop of `_reconstructed_esc_star_rasters`. -/
def gatherStrips (payload : Bytes) (first : Strip) :
    Nat → List Bytes → Nat → Option (List Bytes × Nat)
  | 0, _, _ => none
  | fuel + 1, strips, groupEnd =>
    if payload.length < groupEnd + 3 ∨ !isEscJ payload groupEnd then some (strips, groupEnd)
    else do
      match ← escStarStripAt payload (groupEnd + 3) with
      | none => return (strips, groupEnd)
      | some next =>
        if (next.mode, next.width, next.height) ≠ (first.mode, first.width, first.height) ∨
            maxRasterPixels < first.width * first.height * (strips.length + 1) then
          return (strips, groupEnd)
        else gatherStrips payload first fuel (strips ++ [next.packed]) next.stop

def assembled (baseOffset start : Nat) (first : Strip) (strips : List Bytes) (groupEnd : Nat) :
    RasterImage where
  width := first.width
  height := first.height * strips.length
  packedBits := strips.flatten
  sourceOffset := baseOffset + start
  sourceLength := groupEnd - start
  stripCount := strips.length

/-- The outer loop of `_reconstructed_esc_star_rasters`. -/
def rastersFrom (payload : Bytes) (baseOffset : Nat) :
    Nat → List RasterImage → Nat → Option (List RasterImage)
  | 0, _, _ => none
  | fuel + 1, images, cursor =>
    if payload.length ≤ cursor ∨ maxRasterImages ≤ images.length then some images
    else
      match findPair 0x1B 0x2A payload cursor with
      | none => some images
      | some start => do
        match ← escStarStripAt payload start with
        | none => rastersFrom payload baseOffset fuel images (start + 2)
        | some first =>
          let (strips, groupEnd) ←
            gatherStrips payload first (payload.length + 1) [first.packed] first.stop
          if 2 ≤ strips.length then
            rastersFrom payload baseOffset fuel
              (images ++ [assembled baseOffset start first strips groupEnd]) groupEnd
          else rastersFrom payload baseOffset fuel images first.stop

/-- `_reconstructed_esc_star_rasters` -/
def reconstructedEscStarRasters (payload : Bytes) (baseOffset : Nat) :
    Option (List RasterImage) := rastersFrom payload baseOffset (payload.length + 1) [] 0

/-! ## What the printer prints -/

/-- A strip of the format: ESC *, a mode, the width in two bytes and the columns. -/
structure StripAt (payload : Bytes) (start : Nat) (mode : UInt8) (width : Nat) : Prop where
  command : isEscStar payload start = true
  known : payload[start + 2]? = some mode ∧ mode ∈ [0, 1, 32, 33]
  columns : ∃ low high : UInt8, payload[start + 3]? = some low ∧
    payload[start + 4]? = some high ∧ width = low.toNat + 256 * high.toNat
  nonempty : 0 < width
  within : start + 5 + width * columnBytes mode ≤ payload.length

/-- The dot of a column: its bytes go from top to bottom, the most significant
bit on top. -/
def dot (payload : Bytes) (start : Nat) (mode : UInt8) (x row : Nat) : Bool :=
  bitAt (payload.getD (start + 5 + (x * columnBytes mode + row / 8)) 0) (row % 8)

/-! ## One strip -/

variable {width bytesPerColumn x n : Nat} {data packed : Bytes}

theorem lt_rowStride (h : x < width) : x / 8 < rowStride width := by
  unfold rowStride
  omega

/-- The columns before `x` are painted, and so are `n` dots of column `x`. -/
structure Painted (width bytesPerColumn : Nat) (data : Bytes) (x n : Nat) (packed : Bytes) :
    Prop where
  length : packed.length = rowStride width * (bytesPerColumn * 8)
  dots : ∀ x' y', x' < width → y' < bytesPerColumn * 8 →
    pixel (rowStride width) packed x' y' = (decide (x' < x ∨ x' = x ∧ y' < n) &&
      bitAt (data.getD (x' * bytesPerColumn + y' / 8) 0) (y' % 8))

theorem painted_start :
    Painted width bytesPerColumn data 0 0
      (List.replicate (rowStride width * (bytesPerColumn * 8)) 0) := by
  refine ⟨List.length_replicate, fun x' y' _ _ => ?_⟩
  have hnone : ¬ (x' < 0 ∨ x' = 0 ∧ y' < 0) := by omega
  rw [decide_eq_false hnone, Bool.false_and, pixel, List.getD_eq_getElem?_getD,
    List.getElem?_replicate]
  split <;> exact Nat.zero_testBit _

theorem Painted.bit {band bit : Nat} (h : Painted width bytesPerColumn data x (band * 8 + bit) packed)
    (hx : x < width) (hband : band < bytesPerColumn) (hbit : bit < 8) :
    ∃ painted, decodeBit width (bytesPerColumn * 8) x band
        (data.getD (x * bytesPerColumn + band) 0) packed bit = some painted ∧
      Painted width bytesPerColumn data x (band * 8 + bit + 1) painted := by
  have hy : band * 8 + bit < bytesPerColumn * 8 := by omega
  have hrow : (band * 8 + bit) / 8 = band := by omega
  have hrest : (band * 8 + bit) % 8 = bit := by omega
  have hdone : ∀ x' y', (x' < x ∨ x' = x ∧ y' < band * 8 + bit + 1) ↔
      (x' < x ∨ x' = x ∧ y' < band * 8 + bit) ∨ (x' = x ∧ y' = band * 8 + bit) := by
    intro x' y'
    omega
  unfold decodeBit
  dsimp only
  split
  · next hset =>
    have hin : (band * 8 + bit) * rowStride width + x / 8 < packed.length := by
      have hle : (band * 8 + bit + 1) * rowStride width ≤ bytesPerColumn * 8 * rowStride width :=
        Nat.mul_le_mul_right _ hy
      have hcolumn := lt_rowStride hx
      rw [Nat.add_one_mul] at hle
      rw [h.length, Nat.mul_comm (rowStride width)]
      omega
    obtain ⟨painted, hpainted, hlength, hdots⟩ := pixel_orByte (lt_rowStride hx) hin
    refine ⟨painted, hpainted, by rw [hlength, h.length], fun x' y' hx' hy' => ?_⟩
    rw [hdots x' y' (lt_rowStride hx'), h.dots x' y' hx' hy']
    by_cases hdot : x' = x ∧ y' = band * 8 + bit
    · obtain ⟨rfl, rfl⟩ := hdot
      have hvalue : bitAt (data.getD (x' * bytesPerColumn + band) 0) bit = true := by
        rw [← and_mask hbit]
        exact bne_iff_ne.mpr hset.2
      rw [hrow, hrest, hvalue]
      simp
    · rw [decide_eq_false hdot, Bool.or_false]
      congr 1
      rw [Bool.eq_iff_iff, decide_eq_true_iff, decide_eq_true_iff, hdone]
      exact ⟨Or.inl, fun hor => hor.resolve_right hdot⟩
  · next hclear =>
    refine ⟨packed, rfl, h.length, fun x' y' hx' hy' => ?_⟩
    rw [h.dots x' y' hx' hy']
    by_cases hdot : x' = x ∧ y' = band * 8 + bit
    · obtain ⟨rfl, rfl⟩ := hdot
      have hvalue : bitAt (data.getD (x' * bytesPerColumn + band) 0) bit = false := by
        rw [← and_mask hbit]
        simp only [not_and, not_not] at hclear
        exact bne_eq_false_iff_eq.mpr (hclear hy)
      rw [hrow, hrest, hvalue]
      simp
    · congr 1
      rw [Bool.eq_iff_iff, decide_eq_true_iff, decide_eq_true_iff, hdone]
      exact ⟨Or.inl, fun hor => hor.resolve_right hdot⟩

theorem Painted.band {band : Nat} (h : Painted width bytesPerColumn data x (band * 8) packed)
    (hdata : data.length = width * bytesPerColumn) (hx : x < width)
    (hband : band < bytesPerColumn) :
    ∃ painted, decodeBand width (bytesPerColumn * 8) bytesPerColumn data x packed band =
        some painted ∧ Painted width bytesPerColumn data x ((band + 1) * 8) painted := by
  have hin : x * bytesPerColumn + band < data.length := by
    have hle : (x + 1) * bytesPerColumn ≤ width * bytesPerColumn := Nat.mul_le_mul_right _ hx
    rw [Nat.add_one_mul] at hle
    omega
  have hvalue : data[x * bytesPerColumn + band]? =
      some (data.getD (x * bytesPerColumn + band) 0) := by
    rw [List.getD_eq_getElem _ _ hin, List.getElem?_eq_getElem hin]
  rw [decodeBand, hvalue, Option.bind_some, Nat.add_one_mul]
  exact foldlM_range (P := fun bit => Painted width bytesPerColumn data x (band * 8 + bit)) h 8
    fun bit hbit s hs => hs.bit hx hband hbit

theorem Painted.column (h : Painted width bytesPerColumn data x 0 packed)
    (hdata : data.length = width * bytesPerColumn) (hx : x < width) :
    ∃ painted, decodeColumn width (bytesPerColumn * 8) bytesPerColumn data packed x =
        some painted ∧ Painted width bytesPerColumn data (x + 1) 0 painted := by
  obtain ⟨painted, hrun, hpainted⟩ := foldlM_range
    (P := fun band => Painted width bytesPerColumn data x (band * 8)) (by simpa using h)
    bytesPerColumn fun band hband s hs => hs.band hdata hx hband
  refine ⟨painted, hrun, hpainted.length, fun x' y' hx' hy' => ?_⟩
  rw [hpainted.dots x' y' hx' hy']
  congr 1
  rw [Bool.eq_iff_iff, decide_eq_true_iff, decide_eq_true_iff]
  omega

/-- The columns of a strip become its rows, and no index is out of range. -/
theorem decodeEscStarStrip_spec (hdata : data.length = width * bytesPerColumn) :
    ∃ packed, decodeEscStarStrip width (bytesPerColumn * 8) bytesPerColumn data = some packed ∧
      packed.length = rowStride width * (bytesPerColumn * 8) ∧
      ∀ x y, x < width → y < bytesPerColumn * 8 → pixel (rowStride width) packed x y =
        bitAt (data.getD (x * bytesPerColumn + y / 8) 0) (y % 8) := by
  obtain ⟨packed, hrun, hpainted⟩ := foldlM_range
    (P := fun x => Painted width bytesPerColumn data x 0) painted_start width
    fun x hx s hs => hs.column hdata hx
  refine ⟨packed, hrun, hpainted.length, fun x y hx hy => ?_⟩
  rw [hpainted.dots x y hx hy, decide_eq_true (Or.inl hx), Bool.true_and]

/-! ## A strip of the payload -/

variable {payload : Bytes} {start cursor : Nat} {strip first : Strip}

/-- A strip of the payload with its dots in rows. -/
structure Drawn (payload : Bytes) (start : Nat) (strip : Strip) : Prop where
  placed : StripAt payload start strip.mode strip.width
  height : strip.height = columnBytes strip.mode * 8
  stop : strip.stop = start + 5 + strip.width * columnBytes strip.mode
  length : strip.packed.length = rowStride strip.width * strip.height
  dots : ∀ x y, x < strip.width → y < strip.height →
    pixel (rowStride strip.width) strip.packed x y = dot payload start strip.mode x y

theorem getD_slice {stop i : Nat} (h : start + i < stop) :
    (slice payload start stop).getD i 0 = payload.getD (start + i) 0 := by
  rw [slice, List.getD_eq_getElem?_getD, List.getElem?_drop, List.getElem?_take_of_lt h,
    List.getD_eq_getElem?_getD]

theorem length_slice_add {length : Nat} (h : start + length ≤ payload.length) :
    (slice payload start (start + length)).length = length := by
  rw [slice, List.length_drop, List.length_take]
  omega

/-- The byte of a dot lies in the data of the strip. -/
theorem dot_lt {mode : UInt8} {y : Nat} (hx : x < width) (hy : y < columnBytes mode * 8) :
    x * columnBytes mode + y / 8 < width * columnBytes mode := by
  have hle : (x + 1) * columnBytes mode ≤ width * columnBytes mode := Nat.mul_le_mul_right _ hx
  rw [Nat.add_one_mul] at hle
  omega

/-- Where no strip of the format stands there is none, and otherwise it is drawn. -/
theorem escStarStripAt_spec (payload : Bytes) (cursor : Nat) :
    escStarStripAt payload cursor = some none ∨
      ∃ strip, escStarStripAt payload cursor = some (some strip) ∧ Drawn payload cursor strip := by
  unfold escStarStripAt
  split
  · exact Or.inl rfl
  next hcommand =>
  obtain ⟨hlong, hstar⟩ := not_or.mp hcommand
  rw [List.getElem?_eq_getElem (by omega : cursor + 2 < payload.length),
    List.getElem?_eq_getElem (by omega : cursor + 3 < payload.length),
    List.getElem?_eq_getElem (by omega : cursor + 4 < payload.length)]
  simp only [Option.bind_eq_bind, Option.bind_some]
  split
  · exact Or.inl rfl
  next hmode =>
  split
  · exact Or.inl rfl
  next hwithin =>
  generalize hmodeAt : payload[cursor + 2] = mode at hmode hwithin ⊢
  generalize hwidth : payload[cursor + 3].toNat + payload[cursor + 4].toNat <<< 8 = width
    at hwithin ⊢
  simp only [not_or, Nat.not_lt] at hwithin
  obtain ⟨hpositive, -, hend⟩ := hwithin
  have hdata : (slice payload (cursor + 5) (cursor + 5 + width * columnBytes mode)).length = _ :=
    length_slice_add hend
  obtain ⟨packed, hdecode, hlength, hdots⟩ := decodeEscStarStrip_spec hdata
  rw [hdecode]
  refine Or.inr ⟨_, rfl, ?_, rfl, rfl, hlength, fun x y hx hy => ?_⟩
  · refine ⟨by simpa using hstar, ⟨?_, not_not.mp hmode⟩,
      ⟨payload[cursor + 3], payload[cursor + 4], ?_, ?_, ?_⟩, hpositive, hend⟩
    · rw [← hmodeAt]
      exact List.getElem?_eq_getElem _
    · exact List.getElem?_eq_getElem (by omega)
    · exact List.getElem?_eq_getElem (by omega)
    · rw [← hwidth, Nat.shiftLeft_eq, Nat.mul_comm]
  · rw [hdots x y hx hy, getD_slice (Nat.add_lt_add_left (dot_lt hx hy) _)]
    rfl

/-! ## A group of strips -/

/-- The bytes of a strip. -/
def stripSize (mode : UInt8) (width : Nat) : Nat := 5 + width * columnBytes mode

/-- Where a strip of a group starts: three bytes of line feed are between two. -/
def stripStart (start : Nat) (mode : UInt8) (width i : Nat) : Nat :=
  start + i * (stripSize mode width + 3)

/-- Strips of one form with a line feed between any two. -/
structure Stacked (payload : Bytes) (start : Nat) (first : Strip) (strips : List Bytes)
    (groupEnd : Nat) : Prop where
  stop : groupEnd + 3 = stripStart start first.mode first.width strips.length
  within : groupEnd ≤ payload.length
  drawn : ∀ i packed, strips[i]? = some packed → ∃ strip,
    Drawn payload (stripStart start first.mode first.width i) strip ∧
      strip.mode = first.mode ∧ strip.width = first.width ∧ strip.height = first.height ∧
      strip.packed = packed
  feeds : ∀ i, i + 1 < strips.length → isEscJ payload
    (stripStart start first.mode first.width i + stripSize first.mode first.width) = true

variable {strips : List Bytes} {groupEnd fuel : Nat}

theorem Drawn.stacked (h : Drawn payload start first) :
    Stacked payload start first [first.packed] first.stop := by
  refine ⟨?_, ?_, fun i packed hi => ?_, fun i hi => ?_⟩
  · rw [h.stop, stripStart, stripSize, List.length_singleton]
    omega
  · rw [h.stop]
    exact h.placed.within
  · obtain ⟨rfl, rfl⟩ : i = 0 ∧ packed = first.packed := by
      cases i with
      | zero => exact ⟨rfl, by simpa using hi.symm⟩
      | succ i => simp at hi
    refine ⟨first, ?_, rfl, rfl, rfl, rfl⟩
    rw [stripStart, Nat.zero_mul, Nat.add_zero]
    exact h
  · rw [List.length_singleton] at hi
    omega

theorem Stacked.append {next : Strip} (h : Stacked payload start first strips groupEnd)
    (hfeed : isEscJ payload groupEnd = true) (hnext : Drawn payload (groupEnd + 3) next)
    (hsame : (next.mode, next.width, next.height) = (first.mode, first.width, first.height)) :
    Stacked payload start first (strips ++ [next.packed]) next.stop := by
  simp only [Prod.mk.injEq] at hsame
  obtain ⟨hmode, hwidth, hheight⟩ := hsame
  have hplace := h.stop
  refine ⟨?_, ?_, fun i packed hi => ?_, fun i hi => ?_⟩
  · rw [hnext.stop, hmode, hwidth, h.stop, stripStart, stripStart, List.length_append,
      List.length_singleton, Nat.add_one_mul, stripSize]
    omega
  · rw [hnext.stop]
    exact hnext.placed.within
  · by_cases hlast : i < strips.length
    · rw [List.getElem?_append_left hlast] at hi
      exact h.drawn i packed hi
    · obtain rfl : i = strips.length := by
        by_contra hne
        rw [List.getElem?_eq_none (by simp; omega)] at hi
        simp at hi
      refine ⟨next, ?_, hmode, hwidth, hheight, by simpa using hi⟩
      rw [← h.stop]
      exact hnext
  · rw [List.length_append, List.length_singleton] at hi
    by_cases hlast : i + 1 < strips.length
    · exact h.feeds i hlast
    · have hcount : strips.length = i + 1 := by omega
      have hend : groupEnd =
          stripStart start first.mode first.width i + stripSize first.mode first.width := by
        rw [hcount] at hplace
        simp only [stripStart, Nat.add_one_mul] at hplace ⊢
        omega
      rw [← hend]
      exact hfeed

/-- The inner loop ends, and takes strips of the form of the first one only. -/
theorem gatherStrips_spec (h : Stacked payload start first strips groupEnd)
    (hfuel : payload.length < groupEnd + fuel) :
    ∃ strips' groupEnd', gatherStrips payload first fuel strips groupEnd =
        some (strips', groupEnd') ∧ groupEnd ≤ groupEnd' ∧
      Stacked payload start first strips' groupEnd' := by
  induction fuel generalizing strips groupEnd with
  | zero =>
    have hwithin := h.within
    omega
  | succ fuel ih =>
    rw [gatherStrips]
    split
    · exact ⟨strips, groupEnd, rfl, Nat.le_refl _, h⟩
    · next hfeed =>
      obtain hnone | ⟨next, hsome, hdrawn⟩ := escStarStripAt_spec payload (groupEnd + 3)
      · rw [hnone]
        exact ⟨strips, groupEnd, rfl, Nat.le_refl _, h⟩
      · rw [hsome]
        simp only [Option.bind_eq_bind, Option.bind_some]
        split
        · exact ⟨strips, groupEnd, rfl, Nat.le_refl _, h⟩
        · next hform =>
          obtain ⟨hsame, -⟩ := not_or.mp hform
          have hstop := hdrawn.stop
          obtain ⟨strips', groupEnd', hrun, hle, hstacked⟩ :=
            ih (h.append (by simpa using (not_or.mp hfeed).2) hdrawn (not_not.mp hsame)) (by omega)
          exact ⟨strips', groupEnd', hrun, by omega, hstacked⟩

/-! ## The images -/

/-- An image is its strips one below the other, dot for dot. -/
structure Exact (payload : Bytes) (baseOffset start : Nat) (mode : UInt8) (image : RasterImage) :
    Prop where
  several : 2 ≤ image.stripCount
  height : image.height = image.stripCount * (columnBytes mode * 8)
  source : image.sourceOffset = baseOffset + start
  length : start + image.sourceLength + 3 = stripStart start mode image.width image.stripCount
  within : start + image.sourceLength ≤ payload.length
  placed : ∀ i < image.stripCount,
    StripAt payload (stripStart start mode image.width i) mode image.width
  feeds : ∀ i, i + 1 < image.stripCount → isEscJ payload
    (stripStart start mode image.width i + stripSize mode image.width) = true
  dots : ∀ x y, x < image.width → y < image.height → image.pixelIsBlack x y =
    some (dot payload (stripStart start mode image.width (y / (columnBytes mode * 8))) mode x
      (y % (columnBytes mode * 8)))
  used : ∀ x y, x < image.width → y < image.height →
    5 + (x * columnBytes mode + y % (columnBytes mode * 8) / 8) < stripSize mode image.width

theorem columnBytes_pos (mode : UInt8) : 0 < columnBytes mode := by
  unfold columnBytes
  split <;> decide

theorem Stacked.exact {baseOffset : Nat} (h : Stacked payload start first strips groupEnd)
    (hfirst : Drawn payload start first) (hcount : 2 ≤ strips.length) (hle : start ≤ groupEnd) :
    Exact payload baseOffset start first.mode
      (assembled baseOffset start first strips groupEnd) := by
  have hheight := hfirst.height
  have hpos : 0 < columnBytes first.mode * 8 := by
    have hcolumn := columnBytes_pos first.mode
    omega
  have hstrip : ∀ i < strips.length, ∃ strip,
      Drawn payload (stripStart start first.mode first.width i) strip ∧
        strip.mode = first.mode ∧ strip.width = first.width ∧ strip.height = first.height ∧
        strips[i]? = some strip.packed := by
    intro i hi
    obtain ⟨strip, hdrawn, hmode, hwidth, hheight, hpacked⟩ :=
      h.drawn i _ (List.getElem?_eq_getElem hi)
    exact ⟨strip, hdrawn, hmode, hwidth, hheight, by rw [hpacked, List.getElem?_eq_getElem hi]⟩
  have hlength : ∀ packed ∈ strips,
      packed.length = rowStride first.width * (columnBytes first.mode * 8) := by
    intro packed hm
    obtain ⟨i, hi⟩ := List.mem_iff_getElem?.mp hm
    obtain ⟨strip, hdrawn, -, hwidth, hsame, rfl⟩ := h.drawn i packed hi
    rw [hdrawn.length, hwidth, hsame, hheight]
  refine ⟨hcount, ?_, rfl, ?_, ?_, fun i hi => ?_, h.feeds, fun x y hx hy => ?_, fun x y hx hy => ?_⟩
  · show first.height * strips.length = _
    rw [hheight, Nat.mul_comm]
    rfl
  · show start + (groupEnd - start) + 3 = _
    rw [Nat.add_sub_cancel' hle, h.stop]
    rfl
  · show start + (groupEnd - start) ≤ payload.length
    rw [Nat.add_sub_cancel' hle]
    exact h.within
  · obtain ⟨strip, hdrawn, hmode, hwidth, -⟩ := hstrip i hi
    have hplaced := hdrawn.placed
    rw [hmode, hwidth] at hplaced
    exact hplaced
  · -- the dot is one of the strip its row falls in
    generalize hsize : columnBytes first.mode * 8 = size at hpos hlength hheight ⊢
    change x < first.width at hx
    change y < first.height * strips.length at hy
    rw [hheight] at hy
    have hrow := Nat.mod_lt y hpos
    obtain ⟨strip, hdrawn, hmode, hwidth, hsame, hpacked⟩ :=
      hstrip (y / size) ((Nat.div_lt_iff_lt_mul hpos).mpr (Nat.mul_comm .. ▸ hy))
    have hcolumn := lt_rowStride hx
    have hbyte : y % size * rowStride first.width + x / 8 < rowStride first.width * size := by
      have hle : (y % size + 1) * rowStride first.width ≤ size * rowStride first.width :=
        Nat.mul_le_mul_right _ hrow
      rw [Nat.add_one_mul] at hle
      rw [Nat.mul_comm (rowStride first.width)]
      omega
    have hindex : y * rowStride first.width + x / 8 =
        y / size * (rowStride first.width * size) +
          (y % size * rowStride first.width + x / 8) :=
      calc y * rowStride first.width + x / 8
          = (size * (y / size) + y % size) * rowStride first.width + x / 8 := by
            rw [Nat.div_add_mod]
        _ = _ := by ring
    have hlong : y % size * rowStride first.width + x / 8 < strip.packed.length := by
      rw [hdrawn.length, hwidth, hsame, hheight]
      exact hbyte
    have hdot := hdrawn.dots x (y % size) (hwidth ▸ hx) (by rw [hsame, hheight]; exact hrow)
    rw [hmode, hwidth, pixel, List.getD_eq_getElem _ _ hlong,
      ← and_mask (Nat.mod_lt _ (by decide))] at hdot
    show (strips.flatten[y * rowStride first.width + x / 8]?.map _) = _
    rw [hindex, getElem?_flatten_eq hlength hbyte, hpacked, Option.bind_some,
      List.getElem?_eq_getElem hlong, Option.map_some, hdot]
    rfl
  · have hrow : y % (columnBytes first.mode * 8) < columnBytes first.mode * 8 := Nat.mod_lt _ hpos
    have hbyte := dot_lt hx hrow
    exact Nat.add_lt_add_left hbyte 5

theorem rastersFrom_spec {baseOffset : Nat} {images : List RasterImage}
    (himages : ∀ image ∈ images, ∃ start mode, Exact payload baseOffset start mode image)
    (hmax : images.length ≤ maxRasterImages) (hfuel : payload.length < cursor + fuel)
    (hpos : 0 < fuel) :
    ∃ images', rastersFrom payload baseOffset fuel images cursor = some images' ∧
      images'.length ≤ maxRasterImages ∧
      ∀ image ∈ images', ∃ start mode, Exact payload baseOffset start mode image := by
  induction fuel generalizing images cursor with
  | zero => omega
  | succ fuel ih =>
    rw [rastersFrom]
    split
    · exact ⟨images, rfl, hmax, himages⟩
    next hgo =>
    obtain ⟨hcursor, hroom⟩ := not_or.mp hgo
    cases hfind : findPair 0x1B 0x2A payload cursor with
    | none => exact ⟨images, rfl, hmax, himages⟩
    | some start =>
      have hstart := (findPair_eq_some.mp hfind).1
      obtain hnone | ⟨first, hsome, hdrawn⟩ := escStarStripAt_spec payload start
      · dsimp only
        rw [hnone]
        exact ih himages hmax (by omega) (by omega)
      · obtain ⟨strips, groupEnd, hgather, hle, hstacked⟩ :=
          gatherStrips_spec hdrawn.stacked (by omega : payload.length < first.stop +
            (payload.length + 1))
        have hstop := hdrawn.stop
        dsimp only
        rw [hsome]
        simp only [Option.bind_eq_bind, Option.bind_some, hgather]
        split
        · next hcount =>
          refine ih (fun image hm => ?_) ?_ (by omega) (by omega)
          · obtain hm | hm := List.mem_append.mp hm
            · exact himages image hm
            · rw [List.mem_singleton.mp hm]
              exact ⟨start, first.mode, hstacked.exact hdrawn hcount (by omega)⟩
          · rw [List.length_append, List.length_singleton]
            omega
        · exact ih himages hmax (by omega) (by omega)

/-- The reconstruction ends without an index out of range, and each image shows
the dots of its strips and no others. -/
theorem reconstruction_exact (payload : Bytes) (baseOffset : Nat) :
    ∃ images, reconstructedEscStarRasters payload baseOffset = some images ∧
      images.length ≤ maxRasterImages ∧
      ∀ image ∈ images, ∃ start mode, Exact payload baseOffset start mode image :=
  rastersFrom_spec (fun _ h => absurd h List.not_mem_nil) (Nat.zero_le _) (by omega) (by omega)

/-- Two strips of two columns of eight dots. -/
def twoStrips : Bytes :=
  [0x41, 0x1B, 0x2A, 0, 2, 0, 0x80, 0x01, 0x1B, 0x4A, 8, 0x1B, 0x2A, 0, 2, 0, 0x40, 0xC0]

example : reconstructedEscStarRasters twoStrips 5 = some [
    { width := 2, height := 16
      packedBits := [0x80, 0, 0, 0, 0, 0, 0, 0x40, 0x40, 0xC0, 0, 0, 0, 0, 0, 0]
      sourceOffset := 6, sourceLength := 17, stripCount := 2 }] := by
  decide +kernel

end RetailPrintGuard.Parser.EscposRaster
