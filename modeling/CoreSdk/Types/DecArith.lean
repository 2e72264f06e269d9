import CoreSdk.Types.Dec
import CoreSdk.Types.Int
import CoreSdk.Data.Rounding
import Mathlib.Algebra.Order.Floor.Ring
import Mathlib.Data.Rat.Floor

/-!
# Division of decimals

`Quo`, `QuoTruncate` and `QuoRoundUp` (`types/dec.go`) scale the numerator by
`10^18` twice, divide with truncation toward zero, and then chop the last 18
digits of the quotient: with bankers rounding, by truncation, or rounding up.
The three differ only in the chop, `quoWith`'s parameter.

Read as numbers (`toRat`), `chopPrecisionAndRoundUp` is the ceiling of its
argument over `10^18`. `QuoRoundUp` takes that ceiling of the truncated
quotient, not of the exact one. For a positive quotient whose truncation is a
multiple of `10^18` while the division is inexact, the lost fraction is never
rounded up, and the result lies below the quotient.
-/

namespace CoreSdk.Types.Dec

open Go Go.Big

set_option autoImplicit false

/-- The number a `Dec` stands for. -/
def toRat (d : Dec) : ℚ := d.i / 10 ^ precision

/-- `fivePrecision`, half of `precisionReuse`. -/
def fivePrecision : Int := 10 ^ precision / 2

/-- The non-negative branch of `chopPrecisionAndRound`: the quotient by `10^18`,
rounded half to even. -/
def chopPrecisionAndRoundNonneg (d : Int) : Int :=
  let quo := d.tdiv (10 ^ precision)
  let rem := d.tmod (10 ^ precision)
  if rem = 0 then quo
  else if rem < fivePrecision then quo
  else if rem > fivePrecision then quo + 1
  -- bankers rounding: a tie goes to the even quotient
  else if quo % 2 = 0 then quo else quo + 1

/-- `chopPrecisionAndRound`. The source calls itself on the negated value, which
takes the non-negative branch, and negates back. -/
def chopPrecisionAndRound (d : Int) : Int :=
  if d < 0 then -chopPrecisionAndRoundNonneg (-d) else chopPrecisionAndRoundNonneg d

/-- `chopPrecisionAndTruncate`. -/
def chopPrecisionAndTruncate (d : Int) : Int := d.tdiv (10 ^ precision)

/-- `chopPrecisionAndRoundUp`. -/
def chopPrecisionAndRoundUp (d : Int) : Int :=
  -- truncate since d is negative
  if d < 0 then -chopPrecisionAndTruncate (-d)
  else if d.tmod (10 ^ precision) = 0 then d.tdiv (10 ^ precision)
  else d.tdiv (10 ^ precision) + 1

/-- The body the three quotients share: multiply precision twice, divide, chop. -/
def quoWith (chop : Int → Int) (d d2 : Dec) : Result Dec := do
  let mul := d.i * 10 ^ precision * 10 ^ precision
  let quo ← Go.Big.quo mul d2.i
  let chopped := chop quo
  if bitLen chopped > 255 + decimalPrecisionBits then panicWith "Int overflow" else .ok ⟨chopped⟩

/-- `Dec.Quo`. -/
def quo (d d2 : Dec) : Result Dec := quoWith chopPrecisionAndRound d d2

/-- `Dec.QuoTruncate`. -/
def quoTruncate (d d2 : Dec) : Result Dec := quoWith chopPrecisionAndTruncate d d2

/-- `Dec.QuoRoundUp`. -/
def quoRoundUp (d d2 : Dec) : Result Dec := quoWith chopPrecisionAndRoundUp d d2

/-- The body `Mul` and `MulTruncate` share: multiply, chop, check the bound. -/
def mulWith (chop : Int → Int) (d d2 : Dec) : Result Dec :=
  let mul := d.i * d2.i
  let chopped := chop mul
  if bitLen chopped > 255 + decimalPrecisionBits then panicWith "Int overflow" else .ok ⟨chopped⟩

/-- `Dec.Mul`. -/
def mul (d d2 : Dec) : Result Dec := mulWith chopPrecisionAndRound d d2

/-- `Dec.MulTruncate`. -/
def mulTruncate (d d2 : Dec) : Result Dec := mulWith chopPrecisionAndTruncate d d2

/-- `Dec.MulInt`: the product with an integer, checked against the bound and not chopped. -/
def mulInt (d : Dec) (i : Int) : Result Dec :=
  let mul := d.i * i
  if bitLen mul > 255 + decimalPrecisionBits then panicWith "Int overflow" else .ok ⟨mul⟩

/-- `Dec.RoundInt`, through `chopPrecisionAndRoundNonMutative`, which chops a copy. -/
def roundInt (d : Dec) : Result Int := SdkInt.newIntFromBigInt (chopPrecisionAndRound d.i)

/-- `Dec.TruncateInt`. -/
def truncateInt (d : Dec) : Result Int := SdkInt.newIntFromBigInt (chopPrecisionAndTruncate d.i)

/-- `NewDecFromBigInt`: `NewDecFromBigIntWithPrec(i, 0)`, which scales as `NewDecFromInt` does. -/
def newDecFromBigInt (i : Int) : Result Dec := newDecFromIntWithPrec i 0

/-- `Dec.Ceil`: a truncating `QuoRem`, and one more for a positive remainder. -/
def ceil (d : Dec) : Result Dec :=
  let quo := d.i.tdiv (10 ^ precision)
  let rem := d.i.tmod (10 ^ precision)
  -- no need to round with a zero remainder regardless of sign
  if rem = 0 then newDecFromBigInt quo
  else if rem < 0 then newDecFromBigInt quo
  else newDecFromBigInt (quo + 1)

section Quo

variable (chop : Int → Int)

theorem quoWith_zero (d : Dec) : quoWith chop d ⟨0⟩ = panicWith "division by zero" := rfl

/-- The quotient when the divisor is not zero and the chopped value fits. -/
theorem quoWith_of_fits (d d2 : Dec) (nonzero : d2.i ≠ 0)
    (fits : bitLen (chop ((d.i * 10 ^ precision * 10 ^ precision).tdiv d2.i)) ≤ 255 + decimalPrecisionBits) :
    quoWith chop d d2 = .ok ⟨chop ((d.i * 10 ^ precision * 10 ^ precision).tdiv d2.i)⟩ := by
  rw [quoWith, quo_of_ne_zero _ _ nonzero, ok_bind]
  exact if_neg (not_lt.mpr fits)

end Quo

/-- `chopPrecisionAndRoundUp` is the ceiling of its argument over `10^18`. -/
theorem chopPrecisionAndRoundUp_eq_ceil (d : Int) :
    chopPrecisionAndRoundUp d = ⌈(d : ℚ) / (10 ^ precision : Int)⌉ := by
  have scale : (0 : Int) < 10 ^ precision := by positivity
  rw [Rounding.ceil_intCast_div scale]
  unfold chopPrecisionAndRoundUp chopPrecisionAndTruncate
  -- both branches are floor divisions once the sign is known
  by_cases negative : d < 0
  · rw [if_pos negative, Int.tdiv_eq_ediv_of_nonneg (by omega)]
  · rw [if_neg negative, Int.tmod_eq_emod_of_nonneg (by omega), Int.tdiv_eq_ediv_of_nonneg (by omega),
      Rounding.neg_ediv_neg scale]

/-- Two decimals stand in the ratio of their integers. -/
theorem toRat_div (a b : Dec) : a.toRat / b.toRat = (a.i : ℚ) / b.i := by
  rw [toRat, toRat, div_div_div_cancel_right₀ (by positivity)]

/-- A positive quotient whose division by `b` is inexact but whose truncation is
a multiple of `10^18`: `QuoRoundUp` returns the truncation over `10^18`, below
`a / b`, where the least multiple of `10^-18` not below `a / b` is one step
higher. -/
theorem quoRoundUp_below_quotient (a b : Dec) (positive : 0 < a.i) (positiveB : 0 < b.i)
    (inexact : ¬b.i ∣ a.i * 10 ^ precision * 10 ^ precision)
    (onGrid : (10 ^ precision : Int) ∣ a.i * 10 ^ precision * 10 ^ precision / b.i)
    (fits : bitLen (a.i * 10 ^ precision * 10 ^ precision / b.i / 10 ^ precision) ≤
      255 + decimalPrecisionBits) :
    quoRoundUp a b = .ok ⟨a.i * 10 ^ precision * 10 ^ precision / b.i / 10 ^ precision⟩ ∧
      toRat ⟨a.i * 10 ^ precision * 10 ^ precision / b.i / 10 ^ precision⟩ < a.toRat / b.toRat := by
  have numerator : 0 ≤ a.i * 10 ^ precision * 10 ^ precision := by positivity
  -- the truncated quotient is the floor quotient, and a multiple of the grid
  have truncated : (a.i * 10 ^ precision * 10 ^ precision).tdiv b.i =
      a.i * 10 ^ precision * 10 ^ precision / b.i := Int.tdiv_eq_ediv_of_nonneg numerator
  have quotient : 0 ≤ a.i * 10 ^ precision * 10 ^ precision / b.i := Int.ediv_nonneg numerator positiveB.le
  have chopped : chopPrecisionAndRoundUp (a.i * 10 ^ precision * 10 ^ precision / b.i) =
      a.i * 10 ^ precision * 10 ^ precision / b.i / 10 ^ precision := by
    rw [chopPrecisionAndRoundUp, if_neg (not_lt.mpr quotient), Int.tmod_eq_emod_of_nonneg quotient,
      if_pos (Int.emod_eq_zero_of_dvd onGrid), Int.tdiv_eq_ediv_of_nonneg quotient]
  refine ⟨?_, ?_⟩
  · rw [quoRoundUp, quoWith_of_fits _ _ _ positiveB.ne' (by rw [truncated, chopped]; exact fits), truncated,
      chopped]
  · -- the floor quotient times `b` falls short of the numerator
    have below : a.i * 10 ^ precision * 10 ^ precision / b.i * b.i < a.i * 10 ^ precision * 10 ^ precision :=
      lt_of_le_of_ne (Int.ediv_mul_le _ positiveB.ne') fun exact => inexact ⟨_, by rw [← exact, mul_comm]⟩
    have belowRat : ((a.i * 10 ^ precision * 10 ^ precision / b.i : Int) : ℚ) * b.i <
        a.i * 10 ^ precision * 10 ^ precision := by exact_mod_cast below
    rw [toRat_div, toRat, Int.cast_div onGrid (by positivity), div_div, div_lt_div_iff₀ (by positivity)
      (by exact_mod_cast positiveB)]
    push_cast
    calc ((a.i * 10 ^ precision * 10 ^ precision / b.i : Int) : ℚ) * b.i
        < a.i * 10 ^ precision * 10 ^ precision := belowRat
      _ = a.i * (10 ^ precision * 10 ^ precision) := by ring

/-- `10^-18` divided by `2 * 10^18`: `QuoRoundUp` returns zero. -/
theorem quoRoundUp_below_quotient_tiny :
    quoRoundUp ⟨1⟩ ⟨2 * 10 ^ 36⟩ = .ok ⟨0⟩ ∧ toRat ⟨0⟩ < toRat ⟨1⟩ / toRat ⟨2 * 10 ^ 36⟩ := by
  have zero : (1 * 10 ^ precision * 10 ^ precision / (2 * 10 ^ 36) / 10 ^ precision : Int) = 0 := by decide
  have fits : bitLen (1 * 10 ^ precision * 10 ^ precision / (2 * 10 ^ 36) / 10 ^ precision) ≤
      255 + decimalPrecisionBits := by
    rw [zero]
    simp [bitLen]
  have below := quoRoundUp_below_quotient ⟨1⟩ ⟨2 * 10 ^ 36⟩ (by decide) (by decide) (by decide) (by decide) fits
  rw [zero] at below
  exact below

section Laws

open Rounding

theorem two_mul_fivePrecision : 2 * fivePrecision = 10 ^ precision := by
  norm_num [fivePrecision, precision]

theorem scale_pos : (0 : Int) < 10 ^ precision := by positivity

theorem scale_cast : ((10 ^ precision : Int) : ℚ) = 10 ^ precision := by push_cast; rfl

/-- On a non-negative value the chop rounds the quotient by `10^18` half to even. -/
theorem chopPrecisionAndRoundNonneg_spec {d : Int} (nonneg : 0 ≤ d) :
    IsRoundHalfEven ((d : ℚ) / (10 ^ precision : Int)) (chopPrecisionAndRoundNonneg d) := by
  have half := two_mul_fivePrecision
  have remainder : 0 ≤ d % 10 ^ precision := Int.emod_nonneg _ scale_pos.ne'
  unfold chopPrecisionAndRoundNonneg
  dsimp only
  rw [Int.tdiv_eq_ediv_of_nonneg nonneg, Int.tmod_eq_emod_of_nonneg nonneg]
  -- the branches compare the remainder with half the divisor, as the library lemmas do
  split_ifs with exact below above even
  · exact isRoundHalfEven_ediv scale_pos d (by omega)
  · exact isRoundHalfEven_ediv scale_pos d (by omega)
  · exact isRoundHalfEven_ediv_add_one scale_pos d (by omega)
  · have tie := abs_intCast_div_sub_of_tie (k := ℚ) scale_pos d (by omega)
    exact isRoundHalfEven_of_half tie.1 (Int.even_iff.mpr even)
  · have tie := abs_intCast_div_sub_of_tie (k := ℚ) scale_pos d (by omega)
    exact isRoundHalfEven_of_half tie.2 (Int.even_add_one.mpr fun evenQuo => even (Int.even_iff.mp evenQuo))

/-- A non-negative value ending in exactly half of `10^18` over an even quotient chops down. -/
theorem chopPrecisionAndRound_of_tie {d : Int} (nonneg : 0 ≤ d) (tie : d % 10 ^ precision = fivePrecision)
    (even : Even (d / 10 ^ precision)) : chopPrecisionAndRound d = d / 10 ^ precision := by
  have nonzero : fivePrecision ≠ 0 := by norm_num [fivePrecision, precision]
  unfold chopPrecisionAndRound chopPrecisionAndRoundNonneg
  dsimp only
  rw [if_neg (not_lt.mpr nonneg), Int.tdiv_eq_ediv_of_nonneg nonneg, Int.tmod_eq_emod_of_nonneg nonneg, tie,
    if_neg nonzero, if_neg (lt_irrefl _), if_neg (lt_irrefl _), if_pos (Int.even_iff.mp even)]

/-- `chopPrecisionAndRound` rounds the quotient by `10^18` half to even, for either sign. -/
theorem chopPrecisionAndRound_spec (d : Int) :
    IsRoundHalfEven ((d : ℚ) / 10 ^ precision) (chopPrecisionAndRound d) := by
  unfold chopPrecisionAndRound
  split_ifs with negative
  · have flipped := (chopPrecisionAndRoundNonneg_spec (by omega : 0 ≤ -d)).neg
    rwa [Int.cast_neg, neg_div, neg_neg, scale_cast] at flipped
  · have spec := chopPrecisionAndRoundNonneg_spec (by omega : 0 ≤ d)
    rwa [scale_cast] at spec

theorem chopPrecisionAndTruncate_eq_truncate (d : Int) :
    chopPrecisionAndTruncate d = truncate ((d : ℚ) / 10 ^ precision) := by
  rw [chopPrecisionAndTruncate, ← truncate_intCast_div (k := ℚ) d scale_pos.ne', scale_cast]

/-- A value is the half-even chop exactly when it is the rounding. -/
theorem eq_chopPrecisionAndRound_iff (d n : Int) :
    n = chopPrecisionAndRound d ↔ IsRoundHalfEven ((d : ℚ) / 10 ^ precision) n := by
  constructor
  · rintro rfl
    exact chopPrecisionAndRound_spec d
  · intro rounded
    exact rounded.unique (chopPrecisionAndRound_spec d)

private theorem checked_eq_ok (v : Int) (c : Dec) :
    ((if bitLen v > 255 + decimalPrecisionBits then panicWith "Int overflow" else .ok ⟨v⟩ : Result Dec) =
      .ok c) ↔ c.i = v ∧ bitLen c.i ≤ 255 + decimalPrecisionBits := by
  split_ifs with tooLong
  · simp only [panicWith, reduceCtorEq, false_iff, not_and]
    rintro rfl
    omega
  · rw [Except.ok.injEq]
    constructor
    · rintro rfl
      exact ⟨rfl, Nat.not_lt.mp tooLong⟩
    · rintro ⟨same, -⟩
      rw [← same]

theorem mulWith_eq_ok (chop : Int → Int) (d d2 c : Dec) :
    mulWith chop d d2 = .ok c ↔ c.i = chop (d.i * d2.i) ∧ bitLen c.i ≤ 255 + decimalPrecisionBits :=
  checked_eq_ok _ c

theorem quoWith_eq_ok (chop : Int → Int) (d d2 c : Dec) :
    quoWith chop d d2 = .ok c ↔ d2.i ≠ 0 ∧ c.i = chop ((d.i * 10 ^ precision * 10 ^ precision).tdiv d2.i) ∧
      bitLen c.i ≤ 255 + decimalPrecisionBits := by
  by_cases zero : d2.i = 0
  · have divisor : d2 = ⟨0⟩ := by rw [← zero]
    rw [divisor, quoWith_zero]
    simp [panicWith]
  · rw [quoWith, quo_of_ne_zero _ _ zero, ok_bind, checked_eq_ok]
    simp only [ne_eq, zero, not_false_eq_true, true_and]

/-- The scaled product of two decimals, as the quotient of their integers' product. -/
theorem toRat_mul_scale (a b : Dec) :
    a.toRat * b.toRat * 10 ^ precision = ((a.i * b.i : Int) : ℚ) / 10 ^ precision := by
  unfold toRat
  push_cast
  field_simp

/-- The scaled quotient of two decimals, as the code's numerator over the divisor and the scale. -/
theorem toRat_div_scale (a b : Dec) :
    a.toRat / b.toRat * 10 ^ precision =
      ((a.i * 10 ^ precision * 10 ^ precision : Int) : ℚ) / b.i / 10 ^ precision := by
  rw [toRat_div]
  push_cast
  by_cases zero : (b.i : ℚ) = 0
  · simp [zero]
  · field_simp

theorem mul_eq_ok (a b c : Dec) :
    mul a b = .ok c ↔ IsRoundHalfEven (a.toRat * b.toRat * 10 ^ precision) c.i ∧
      bitLen c.i ≤ 255 + decimalPrecisionBits := by
  rw [mul, mulWith_eq_ok, eq_chopPrecisionAndRound_iff, toRat_mul_scale]

theorem mulTruncate_eq_ok (a b c : Dec) :
    mulTruncate a b = .ok c ↔ c.i = truncate (a.toRat * b.toRat * 10 ^ precision) ∧
      bitLen c.i ≤ 255 + decimalPrecisionBits := by
  rw [mulTruncate, mulWith_eq_ok, chopPrecisionAndTruncate_eq_truncate, toRat_mul_scale]

theorem quoTruncate_eq_ok (a b c : Dec) :
    quoTruncate a b = .ok c ↔ b.i ≠ 0 ∧ c.i = truncate (a.toRat / b.toRat * 10 ^ precision) ∧
      bitLen c.i ≤ 255 + decimalPrecisionBits := by
  rw [quoTruncate, quoWith_eq_ok]
  by_cases zero : b.i = 0
  · simp [zero]
  · -- two truncating divisions compose into one
    have nested : chopPrecisionAndTruncate ((a.i * 10 ^ precision * 10 ^ precision).tdiv b.i) =
        truncate (a.toRat / b.toRat * 10 ^ precision) := by
      rw [chopPrecisionAndTruncate_eq_truncate, ← truncate_intCast_div (k := ℚ) _ zero, toRat_div_scale,
        ← scale_cast]
      exact truncate_truncate_div scale_pos _
    rw [nested]

theorem roundInt_eq_ok (d : Dec) (n : Int) :
    roundInt d = .ok n ↔ IsRoundHalfEven d.toRat n ∧ bitLen n ≤ SdkInt.maxBitLen := by
  rw [roundInt, SdkInt.newIntFromBigInt_eq_ok]
  constructor
  · rintro ⟨rfl, fits⟩
    exact ⟨chopPrecisionAndRound_spec d.i, fits⟩
  · rintro ⟨rounded, fits⟩
    have same := (eq_chopPrecisionAndRound_iff d.i n).mpr rounded
    exact ⟨same, same ▸ fits⟩

theorem truncateInt_eq_ok (d : Dec) (n : Int) :
    truncateInt d = .ok n ↔ n = truncate d.toRat ∧ bitLen n ≤ SdkInt.maxBitLen := by
  rw [truncateInt, SdkInt.newIntFromBigInt_eq_ok, chopPrecisionAndTruncate_eq_truncate, toRat]
  constructor
  · rintro ⟨rfl, fits⟩
    exact ⟨rfl, fits⟩
  · rintro ⟨rfl, fits⟩
    exact ⟨rfl, fits⟩

/-- The truncating quotient with one more for a positive remainder is the ceiling. -/
theorem ceil_quotient (z : Int) {P : Int} (positive : 0 < P) :
    (if z.tmod P = 0 then z.tdiv P else if z.tmod P < 0 then z.tdiv P else z.tdiv P + 1) =
      ⌈(z : ℚ) / P⌉ := by
  rw [ceil_intCast_div positive]
  rcases le_or_gt 0 z with nonneg | negative
  · rw [Int.tmod_eq_emod_of_nonneg nonneg, Int.tdiv_eq_ediv_of_nonneg nonneg, neg_ediv_neg positive,
      if_neg (not_lt.mpr (Int.emod_nonneg z positive.ne'))]
  · -- a negative value truncates up, whatever its remainder
    have truncated : z.tdiv P = -((-z) / P) := by
      have flipped : (-z).tdiv P = (-z) / P := Int.tdiv_eq_ediv_of_nonneg (by omega)
      rw [Int.neg_tdiv] at flipped
      omega
    have remainder : z.tmod P ≤ 0 := by
      have flipped : (-z).tmod P = (-z) % P := Int.tmod_eq_emod_of_nonneg (by omega)
      rw [Int.neg_tmod] at flipped
      have := Int.emod_nonneg (-z) positive.ne'
      omega
    rw [truncated]
    split_ifs <;> first | rfl | omega

theorem ceil_eq (d : Dec) : ceil d = .ok ⟨⌈d.toRat⌉ * 10 ^ precision⟩ := by
  have branches : ceil d = newDecFromBigInt (if d.i.tmod (10 ^ precision) = 0 then d.i.tdiv (10 ^ precision)
      else if d.i.tmod (10 ^ precision) < 0 then d.i.tdiv (10 ^ precision) else d.i.tdiv (10 ^ precision) + 1) := by
    unfold ceil
    dsimp only
    split_ifs <;> rfl
  rw [branches, ceil_quotient d.i scale_pos, scale_cast]
  rfl

/-! ### Exact values

A product or a quotient whose exact value lies on the `10^-18` grid is what
`Mul` and `Quo` return: the half-even rounding of a grid value is that value. -/

@[simp] theorem toRat_scaled (n : Int) : (⟨n * 10 ^ precision⟩ : Dec).toRat = n := by
  rw [toRat, Int.cast_mul, ← scale_cast, mul_div_assoc, div_self (by exact_mod_cast scale_pos.ne'), mul_one]

theorem chopPrecisionAndRound_scaled (k : Int) : chopPrecisionAndRound (k * 10 ^ precision) = k := by
  symm
  rw [eq_chopPrecisionAndRound_iff]
  apply isRoundHalfEven_of_abs_lt
  rw [Int.cast_mul, mul_div_assoc, show ((10 ^ precision : Int) : ℚ) / 10 ^ precision = 1 by
    rw [scale_cast]; exact div_self (by positivity)]
  norm_num

/-- A product on the grid and within the bound is exact. -/
theorem mul_of_onGrid {a b : Dec} {v : ℚ} (product : a.toRat * b.toRat = v) {k : Int}
    (grid : (k : ℚ) = v * 10 ^ precision) (fits : bitLen k ≤ 255 + decimalPrecisionBits) :
    mul a b = .ok ⟨k⟩ ∧ (⟨k⟩ : Dec).toRat = v := by
  have rounded : IsRoundHalfEven (a.toRat * b.toRat * 10 ^ precision) k :=
    isRoundHalfEven_of_abs_lt (by rw [product, ← grid]; norm_num)
  refine ⟨(mul_eq_ok a b ⟨k⟩).mpr ⟨rounded, fits⟩, ?_⟩
  rw [toRat, grid]
  field_simp

/-- A quotient on the grid and within the bound is exact: the truncating
division of the scaled numerator has no remainder. -/
theorem quo_of_onGrid {a b : Dec} {v : ℚ} (quotient : a.toRat / b.toRat = v) (nonzero : b.i ≠ 0) {k : Int}
    (grid : (k : ℚ) = v * 10 ^ precision) (fits : bitLen k ≤ 255 + decimalPrecisionBits) :
    quo a b = .ok ⟨k⟩ ∧ (⟨k⟩ : Dec).toRat = v := by
  have numerator : a.i * 10 ^ precision * 10 ^ precision = k * 10 ^ precision * b.i := by
    have scaled := toRat_div_scale a b
    rw [quotient, ← grid, ← scale_cast, eq_div_iff (by exact_mod_cast scale_pos.ne'),
      eq_div_iff (by exact_mod_cast nonzero)] at scaled
    exact_mod_cast scaled.symm
  have divided : (a.i * 10 ^ precision * 10 ^ precision).tdiv b.i = k * 10 ^ precision := by
    rw [numerator, Int.mul_tdiv_cancel _ nonzero]
  refine ⟨(quoWith_eq_ok _ a b ⟨k⟩).mpr ⟨nonzero, by rw [divided, chopPrecisionAndRound_scaled], fits⟩, ?_⟩
  rw [toRat, grid]
  field_simp

/-- `RoundInt` of a whole value within the bound of `Int`. -/
theorem roundInt_scaled (n : Int) (fits : bitLen n ≤ SdkInt.maxBitLen) :
    roundInt ⟨n * 10 ^ precision⟩ = .ok n := by
  rw [roundInt, chopPrecisionAndRound_scaled]
  exact SdkInt.newIntFromBigInt_eq_ok.mpr ⟨rfl, fits⟩

/-- `TruncateInt` of a whole value within the bound of `Int`. -/
theorem truncateInt_scaled (n : Int) (fits : bitLen n ≤ SdkInt.maxBitLen) :
    truncateInt ⟨n * 10 ^ precision⟩ = .ok n := by
  have chopped : chopPrecisionAndTruncate (n * 10 ^ precision) = n := Int.mul_tdiv_cancel n scale_pos.ne'
  rw [truncateInt, chopped]
  exact SdkInt.newIntFromBigInt_eq_ok.mpr ⟨rfl, fits⟩

/-- `RoundInt` of a value between zero and an integer within the bound of
`Int`: the half-even rounding, which lies between them too. -/
theorem roundInt_of_le {d : Dec} {bound : Int} (nonneg : 0 ≤ d.toRat) (below : d.toRat ≤ bound)
    (fits : bitLen bound ≤ SdkInt.maxBitLen) :
    ∃ n, roundInt d = .ok n ∧ IsRoundHalfEven d.toRat n ∧ 0 ≤ n := by
  have rounded : IsRoundHalfEven d.toRat (chopPrecisionAndRound d.i) := chopPrecisionAndRound_spec d.i
  -- the rounding is at most one half from the value
  obtain ⟨lower, upper⟩ := abs_le.mp rounded.abs_sub_le_half
  have atLeast : (-1 : Int) < chopPrecisionAndRound d.i := by
    have : (-1 : ℚ) < chopPrecisionAndRound d.i := by linarith
    exact_mod_cast this
  have atMost : chopPrecisionAndRound d.i < bound + 1 := by
    have : (chopPrecisionAndRound d.i : ℚ) < bound + 1 := by linarith
    exact_mod_cast this
  have within : bitLen (chopPrecisionAndRound d.i) ≤ SdkInt.maxBitLen := by
    rw [bitLen_le_iff] at fits ⊢
    omega
  exact ⟨_, (roundInt_eq_ok d _).mpr ⟨rounded, within⟩, rounded, by omega⟩

/-- The exact operations round as their names say, within the overflow bound: `Mul`
half to even, `MulTruncate` and `QuoTruncate` toward zero on the `10^-18` grid,
`RoundInt` and `TruncateInt` to an integer half to even and toward zero, and
`Ceil` up to an integer. -/
theorem exact_rounding_laws (a b d c : Dec) (n : Int) :
    (mul a b = .ok c ↔ IsRoundHalfEven (a.toRat * b.toRat * 10 ^ precision) c.i ∧
      bitLen c.i ≤ 255 + decimalPrecisionBits) ∧
    (mulTruncate a b = .ok c ↔ c.i = truncate (a.toRat * b.toRat * 10 ^ precision) ∧
      bitLen c.i ≤ 255 + decimalPrecisionBits) ∧
    (quoTruncate a b = .ok c ↔ b.i ≠ 0 ∧ c.i = truncate (a.toRat / b.toRat * 10 ^ precision) ∧
      bitLen c.i ≤ 255 + decimalPrecisionBits) ∧
    (roundInt d = .ok n ↔ IsRoundHalfEven d.toRat n ∧ bitLen n ≤ SdkInt.maxBitLen) ∧
    (truncateInt d = .ok n ↔ n = truncate d.toRat ∧ bitLen n ≤ SdkInt.maxBitLen) ∧
    ceil d = .ok ⟨⌈d.toRat⌉ * 10 ^ precision⟩ :=
  ⟨mul_eq_ok a b c, mulTruncate_eq_ok a b c, quoTruncate_eq_ok a b c, roundInt_eq_ok d n,
    truncateInt_eq_ok d n, ceil_eq d⟩

/-- A positive quotient whose truncation ends in exactly half of `10^18` over an
even chopped value, while the division by `b` is inexact: `Quo` rounds the tie
down to the even value, but the exact quotient is above the tie and its rounding
is one step higher. -/
theorem quo_rounds_hidden_tie_down (a b : Dec) (positive : 0 < a.i) (positiveB : 0 < b.i)
    (inexact : ¬b.i ∣ a.i * 10 ^ precision * 10 ^ precision)
    (tie : a.i * 10 ^ precision * 10 ^ precision / b.i % 10 ^ precision = fivePrecision)
    (even : Even (a.i * 10 ^ precision * 10 ^ precision / b.i / 10 ^ precision))
    (fits : bitLen (a.i * 10 ^ precision * 10 ^ precision / b.i / 10 ^ precision) ≤
      255 + decimalPrecisionBits) :
    quo a b = .ok ⟨a.i * 10 ^ precision * 10 ^ precision / b.i / 10 ^ precision⟩ ∧
      IsRoundHalfEven (a.toRat / b.toRat * 10 ^ precision)
        (a.i * 10 ^ precision * 10 ^ precision / b.i / 10 ^ precision + 1) ∧
      ¬IsRoundHalfEven (a.toRat / b.toRat * 10 ^ precision)
        (a.i * 10 ^ precision * 10 ^ precision / b.i / 10 ^ precision) := by
  have numerator : 0 ≤ a.i * 10 ^ precision * 10 ^ precision := by positivity
  have truncated : (a.i * 10 ^ precision * 10 ^ precision).tdiv b.i =
      a.i * 10 ^ precision * 10 ^ precision / b.i := Int.tdiv_eq_ediv_of_nonneg numerator
  have chopped := chopPrecisionAndRound_of_tie (Int.ediv_nonneg numerator positiveB.le) tie even
  have rounded : IsRoundHalfEven (a.toRat / b.toRat * 10 ^ precision)
      (a.i * 10 ^ precision * 10 ^ precision / b.i / 10 ^ precision + 1) := by
    rw [toRat_div_scale, ← scale_cast]
    exact isRoundHalfEven_ediv_ediv_of_tie scale_pos positiveB
      (fun zero => inexact (Int.dvd_of_emod_eq_zero zero)) (by rw [tie, two_mul_fivePrecision])
  refine ⟨?_, rounded, fun wrong => ?_⟩
  · rw [quo, quoWith_of_fits _ _ _ positiveB.ne' (by rw [truncated, chopped]; exact fits), truncated, chopped]
  · have same := wrong.unique rounded
    omega

/-- `10^-18` divided by `2 - 10^-18`: the truncated quotient is exactly `5 * 10^17`
and `Quo` returns zero, while the quotient is above one half. -/
theorem quo_rounds_hidden_tie_down_smallest :
    quo ⟨1⟩ ⟨2 * 10 ^ 18 - 1⟩ = .ok ⟨0⟩ ∧
      IsRoundHalfEven (toRat ⟨1⟩ / toRat ⟨2 * 10 ^ 18 - 1⟩ * 10 ^ precision) 1 ∧
      ¬IsRoundHalfEven (toRat ⟨1⟩ / toRat ⟨2 * 10 ^ 18 - 1⟩ * 10 ^ precision) 0 := by
  have zero : (1 * 10 ^ precision * 10 ^ precision / (2 * 10 ^ 18 - 1) / 10 ^ precision : Int) = 0 := by decide
  have fits : bitLen (1 * 10 ^ precision * 10 ^ precision / (2 * 10 ^ 18 - 1) / 10 ^ precision) ≤
      255 + decimalPrecisionBits := by
    rw [zero]
    simp [bitLen]
  have wrong := quo_rounds_hidden_tie_down ⟨1⟩ ⟨2 * 10 ^ 18 - 1⟩ (by decide) (by decide) (by decide)
    (by decide) (by decide) fits
  rw [zero] at wrong
  exact wrong

end Laws

end CoreSdk.Types.Dec
