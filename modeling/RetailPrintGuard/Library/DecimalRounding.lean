import RetailPrintGuard.Library.DecimalFloat

/-! # Products rounded half even

A product rounded to the places of one factor gives this factor back exactly
when what the other one adds to it is at most half a unit of its last place. -/
namespace RetailPrintGuard.Library.DecimalRounding
open RetailPrintGuard.Library.DecimalFloat

/-- The product, without any rounding. -/
def exactMul (x y : Decimal) : Decimal where
  negative := x.negative != y.negative
  coefficient := x.coefficient * y.coefficient
  exponent := x.exponent + y.exponent

/-- A number rounded half even to an exponent. -/
def roundTo (exponent : Int) (x : Decimal) : Decimal := ⟨x.negative, rescale exponent x, exponent⟩

/-- The coefficient with its sign. -/
def signed (x : Decimal) : Int := if x.negative then -(x.coefficient : Int) else x.coefficient

/-- What the factor `by` adds to a number, in units of the last place of both:
at most half a unit of the number's own last place, and exactly half only where
rounding goes to the even side. -/
def Keeps (factor x : Decimal) : Prop :=
  let one : Nat := 10 ^ decimals factor
  let added := (signed factor - one).natAbs * x.coefficient
  2 * added < one ∨ (2 * added = one ∧ x.coefficient % 2 = 0)

instance (factor x : Decimal) : Decidable (Keeps factor x) :=
  inferInstanceAs (Decidable (_ ∨ (_ ∧ _)))

variable {drop n m : Nat} {x y : Decimal} {exponent : Int}

/-- A number rounds to another one when it is closest, the even one of two. -/
theorem roundOff_eq_iff : roundOff drop n = m ↔
    2 * ((n : Int) - (m * 10 ^ drop : Nat)).natAbs < 10 ^ drop ∨
      (2 * ((n : Int) - (m * 10 ^ drop : Nat)).natAbs = 10 ^ drop ∧ m % 2 = 0) := by
  have hpos : 0 < 10 ^ drop := Nat.pow_pos (by decide)
  have hdiv := Nat.div_add_mod' n (10 ^ drop)
  have hlt := Nat.mod_lt n hpos
  unfold roundOff
  dsimp only
  generalize 10 ^ drop = one at *
  generalize n / one = q at *
  generalize n % one = r at *
  rcases Nat.lt_or_ge m q with hbelow | hge
  · have hfar := Nat.mul_le_mul_right one (Nat.succ_le_of_lt hbelow)
    rw [Nat.succ_mul] at hfar
    refine iff_of_false (fun heq => ?_) (by omega)
    split_ifs at heq <;> omega
  rcases Nat.lt_or_ge (q + 1) m with habove | hle
  · have hfar := Nat.mul_le_mul_right one (Nat.succ_le_of_lt habove)
    rw [Nat.succ_mul, Nat.succ_mul] at hfar
    refine iff_of_false (fun heq => ?_) (by omega)
    split_ifs at heq <;> omega
  obtain rfl | rfl : m = q ∨ m = q + 1 := by omega
  · split_ifs <;> omega
  · have hnext : (q + 1) * one = q * one + one := Nat.succ_mul q one
    rw [hnext]
    split_ifs <;> omega

/-- A number that has the exponent is not rounded. -/
theorem roundTo_self (h : x.exponent = exponent) : roundTo exponent x = x := by
  unfold roundTo rescale
  rw [if_pos (by omega), h, Int.sub_self, Int.toNat_zero, Nat.pow_zero, Nat.mul_one, ← h]

theorem rescale_exactMul (hx : x.exponent = exponent) (hy : y.exponent ≤ 0) :
    rescale exponent (exactMul x y) = roundOff (decimals y) (x.coefficient * y.coefficient) := by
  unfold rescale exactMul decimals
  dsimp only
  split
  · next hle =>
    have hzero : y.exponent = 0 := by omega
    simp [hx, hzero, roundOff, Nat.mod_one]
  · rw [hx]
    congr 1
    omega

theorem equals_of_exponent (h : x.exponent = exponent) (k : y.exponent = exponent) :
    equals x y = true ↔ signed x = signed y := by
  unfold equals units signed
  simp [h, k]

theorem equals_self (x : Decimal) : equals x x = true := by simp [equals]

/-- The product keeps a factor. -/
theorem equals_roundTo_iff (hx : x.exponent = exponent) (hy : y.exponent ≤ 0) :
    equals x (roundTo exponent (exactMul x y)) = true ↔ Keeps y x := by
  rw [equals_of_exponent hx rfl, roundTo, rescale_exactMul hx hy]
  unfold Keeps signed exactMul
  dsimp only
  generalize x.coefficient = n
  generalize y.coefficient = k
  have hpos : 0 < 10 ^ decimals y := Nat.pow_pos (by decide)
  cases y.negative with
  | false =>
    have hsame : ((if x.negative = true then -(n : Int) else n) =
        if (x.negative != false) = true then -(roundOff (decimals y) (n * k) : Int)
        else roundOff (decimals y) (n * k)) ↔ roundOff (decimals y) (n * k) = n := by
      cases x.negative <;> simp <;> omega
    have hadded : ((k : Int) - (10 ^ decimals y : Nat)).natAbs * n =
        ((n * k : Nat) - (n * 10 ^ decimals y : Nat) : Int).natAbs := by
      rw [← Int.natAbs_natCast n, ← Int.natAbs_mul, Int.natAbs_natCast]
      congr 1
      push_cast
      ring
    rw [hsame, roundOff_eq_iff, ← hadded]
    simp
  | true =>
    -- the sign changes, so the number must be zero
    have hzero : ((if x.negative = true then -(n : Int) else n) =
        if (x.negative != true) = true then -(roundOff (decimals y) (n * k) : Int)
        else roundOff (decimals y) (n * k)) ↔ n = 0 := by
      constructor
      · cases x.negative <;> simp <;> omega
      · rintro rfl
        simp [roundOff, hpos]
    have hadded : ((if true = true then -(k : Int) else k) - (10 ^ decimals y : Nat)).natAbs * n =
        (k + 10 ^ decimals y) * n := by
      rw [if_pos rfl]
      congr 1
      omega
    rw [hzero, hadded]
    constructor
    · rintro rfl
      exact Or.inl hpos
    · intro h
      by_contra hne
      have hle := Nat.mul_le_mul_left (k + 10 ^ decimals y) (Nat.one_le_iff_ne_zero.mpr hne)
      omega

end RetailPrintGuard.Library.DecimalRounding
