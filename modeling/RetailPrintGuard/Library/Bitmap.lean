import Mathlib.Data.List.Basic
import Mathlib.Data.Nat.Bitwise
import Mathlib.Tactic.IntervalCases

/-! # Packed bitmaps

A row of a bitmap is a whole number of bytes, the leftmost dot in the most
significant bit. -/
namespace RetailPrintGuard.Library.Bitmap

/-- A bit of a byte, the most significant one first. -/
def bitAt (value : UInt8) (bit : Nat) : Bool := value.toNat.testBit (7 - bit)

def pixel (stride : Nat) (packed : List UInt8) (x y : Nat) : Bool :=
  bitAt (packed.getD (y * stride + x / 8) 0) (x % 8)

/-- Sets the bits of a mask in one byte; there is none out of range. -/
def orByte (bytes : List UInt8) (index mask : Nat) : Option (List UInt8) :=
  bytes[index]?.map fun value => bytes.set index (UInt8.ofNat (value.toNat ||| mask))

/-! ## Bits of a byte -/

variable {value : UInt8} {bit other : Nat}

theorem mask_eq (h : bit < 8) : 0x80 >>> bit = 2 ^ (7 - bit) := by
  interval_cases bit <;> rfl

theorem and_mask (h : bit < 8) : (value.toNat &&& (0x80 >>> bit) != 0) = bitAt value bit := by
  rw [mask_eq h, Nat.and_two_pow, bitAt]
  cases value.toNat.testBit (7 - bit) <;> simp

theorem bitAt_or (h : bit < 8) (hother : other < 8) :
    bitAt (UInt8.ofNat (value.toNat ||| (0x80 >>> bit))) other =
      (bitAt value other || decide (other = bit)) := by
  have hbyte : value.toNat ||| 2 ^ (7 - bit) < 2 ^ 8 :=
    Nat.or_lt_two_pow value.toNat_lt (Nat.pow_lt_pow_right (by decide) (by omega))
  rw [mask_eq h, bitAt, UInt8.toNat_ofNat', Nat.mod_eq_of_lt hbyte, Nat.testBit_or,
    Nat.testBit_two_pow, bitAt]
  congr 1
  rw [Bool.eq_iff_iff, decide_eq_true_iff, decide_eq_true_iff]
  omega

/-! ## Dots of a bitmap -/

variable {stride x y x' y' : Nat} {packed : List UInt8}

theorem index_inj {row row' column column' : Nat} (h : column < stride) (h' : column' < stride) :
    row * stride + column = row' * stride + column' ↔ row = row' ∧ column = column' := by
  refine ⟨fun heq => ?_, fun ⟨hrow, hcolumn⟩ => by rw [hrow, hcolumn]⟩
  have hdiv := congrArg (· / stride) heq
  have hpos : 0 < stride := by omega
  simp only [Nat.mul_comm _ stride, Nat.mul_add_div hpos, Nat.div_eq_of_lt h,
    Nat.div_eq_of_lt h', Nat.add_zero] at hdiv
  subst hdiv
  exact ⟨rfl, by omega⟩

/-- Painting a dot sets it and no other one. -/
theorem pixel_orByte (hx : x / 8 < stride) (hin : y * stride + x / 8 < packed.length) :
    ∃ painted, orByte packed (y * stride + x / 8) (0x80 >>> (x % 8)) = some painted ∧
      painted.length = packed.length ∧ ∀ x' y', x' / 8 < stride →
        pixel stride painted x' y' =
          (pixel stride packed x' y' || decide (x' = x ∧ y' = y)) := by
  refine ⟨_, by rw [orByte, List.getElem?_eq_getElem hin]; rfl, List.length_set, ?_⟩
  intro x' y' hx'
  have hindex := @index_inj stride y' y (x' / 8) (x / 8) hx' hx
  unfold pixel
  rw [List.getD_eq_getElem?_getD, List.getElem?_set, List.getD_eq_getElem?_getD]
  by_cases hsame : y * stride + x / 8 = y' * stride + x' / 8
  · obtain ⟨rfl, hbyte⟩ := hindex.mp hsame.symm
    have hdot : x' = x ↔ x' % 8 = x % 8 := by omega
    rw [if_pos hsame, if_pos hin, ← hsame, List.getElem?_eq_getElem hin]
    simp only [Option.getD_some, and_true, hdot]
    exact bitAt_or (Nat.mod_lt _ (by decide)) (Nat.mod_lt _ (by decide))
  · have hdot : ¬ (x' = x ∧ y' = y) := fun ⟨hcolumn, hrow⟩ =>
      hsame (by rw [hcolumn, hrow])
    rw [if_neg hsame, decide_eq_false hdot, Bool.or_false]

/-! ## Loops over an index -/

/-- What each turn of a loop keeps holds at its end, and no turn fails. -/
theorem foldlM_range {σ : Type} {step : σ → Nat → Option σ} {P : Nat → σ → Prop} {start : σ}
    (hstart : P 0 start) (n : Nat)
    (hstep : ∀ i < n, ∀ s, P i s → ∃ s', step s i = some s' ∧ P (i + 1) s') :
    ∃ s, (List.range n).foldlM step start = some s ∧ P n s := by
  induction n with
  | zero => exact ⟨start, rfl, hstart⟩
  | succ n ih =>
    obtain ⟨s, hrun, hs⟩ := ih fun i hi => hstep i (by omega)
    obtain ⟨s', hlast, hs'⟩ := hstep n (by omega) s hs
    refine ⟨s', ?_, hs'⟩
    rw [List.range_succ, List.foldlM_append, hrun]
    simp [hlast]

/-! ## Rows of bitmaps -/

variable {α : Type} {size : Nat} {rows : List (List α)}

/-- An element of equal pieces joined is one of the piece its index falls in. -/
theorem getElem?_flatten_eq (h : ∀ row ∈ rows, row.length = size) {r : Nat} (hr : r < size)
    (q : Nat) : rows.flatten[q * size + r]? = rows[q]?.bind fun row => row[r]? := by
  induction rows generalizing q with
  | nil => rfl
  | cons row rows ih =>
    have hrow := h row List.mem_cons_self
    rw [List.flatten_cons]
    cases q with
    | zero =>
      rw [Nat.zero_mul, Nat.zero_add, List.getElem?_append_left (by omega)]
      rfl
    | succ q =>
      have hskip : (q + 1) * size + r - row.length = q * size + r := by
        rw [Nat.add_one_mul]
        omega
      rw [List.getElem?_append_right (by rw [Nat.add_one_mul]; omega), hskip,
        ih (fun row hm => h row (List.mem_cons_of_mem _ hm))]
      rfl

end RetailPrintGuard.Library.Bitmap
