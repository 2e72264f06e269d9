import Mathlib.Algebra.Order.Floor.Ring
import Mathlib.Algebra.Order.Round
import Mathlib.Tactic.FieldSimp
import Mathlib.Tactic.LinearCombination
import Mathlib.Tactic.Linarith
import Mathlib.Tactic.Positivity
import Mathlib.Tactic.Ring

/-!
# Rounding a quotient to a grid

The ceiling of a quotient by a positive integer in an ordered field, computed
with `Int` division, which floors for a positive divisor. A ceiling taken after
a ceiling is the ceiling of the quotient. A ceiling taken after a floor is too,
except when the floor is a multiple of the divisor and the value is not an
integer: then the first rounding has dropped the part that the ceiling should
have rounded up.

Round half to even is stated against every candidate integer (`IsRoundHalfEven`)
and is unique; an integer closer than one half is the rounding, and so is the
even one of two at distance one half. Truncation toward zero (`truncate`) is
the floor or the ceiling by sign, and is what `Int.tdiv` computes on a quotient.
-/

namespace Rounding

set_option autoImplicit false

variable {k : Type} [Field k] [LinearOrder k] [IsOrderedRing k] [FloorRing k]

/-- The ceiling of a quotient, from the floor division of the negated ceiling. -/
theorem ceil_div_cast_of_pos {n : ℤ} (positive : 0 < n) (a : k) : ⌈a / n⌉ = -((-⌈a⌉) / n) := by
  have flipped : ⌊-a / n⌋ = ⌊-a⌋ / n := Int.floor_div_cast_of_nonneg positive.le (-a)
  rw [neg_div, Int.floor_neg, Int.floor_neg] at flipped
  omega

theorem ceil_intCast_div {n : ℤ} (positive : 0 < n) (z : ℤ) : ⌈(z : k) / n⌉ = -((-z) / n) := by
  rw [ceil_div_cast_of_pos positive, Int.ceil_intCast]

/-- The same in the form a fixed-point library computes it: the floor quotient,
plus one for a remainder. -/
theorem neg_ediv_neg {n : ℤ} (positive : 0 < n) (z : ℤ) :
    -((-z) / n) = if z % n = 0 then z / n else z / n + 1 := by
  rw [Int.neg_ediv, Int.sign_eq_one_of_pos positive]
  by_cases divides : n ∣ z
  · rw [if_pos divides, if_pos (Int.emod_eq_zero_of_dvd divides)]
    omega
  · rw [if_neg divides, if_neg fun zero => divides (Int.dvd_of_emod_eq_zero zero)]
    omega

/-- `n` is an integer nearest to `x`, and the even one when two are equally near. -/
structure IsRoundHalfEven (x : k) (n : ℤ) : Prop where
  nearest : ∀ m : ℤ, |x - n| ≤ |x - m|
  tie : ∀ m : ℤ, m ≠ n → |x - m| = |x - n| → Even n

/-- Rounding toward zero. -/
def truncate (x : k) : ℤ := if 0 ≤ x then ⌊x⌋ else ⌈x⌉

section HalfEven

variable {x : k} {n : ℤ}

theorem IsRoundHalfEven.abs_sub_le_half (rounded : IsRoundHalfEven x n) : |x - n| ≤ 1 / 2 :=
  (rounded.nearest (round x)).trans (abs_sub_round x)

/-- Two integers at most one half from `x` are one apart or equal. -/
theorem abs_intCast_sub_le_one {m : ℤ} (close : |x - n| ≤ 1 / 2) (closeM : |x - m| ≤ 1 / 2) :
    |n - m| ≤ 1 := by
  have apart : |((n - m : ℤ) : k)| ≤ 1 := by
    calc |((n - m : ℤ) : k)| = |(x - m) - (x - n)| := by push_cast; congr 1; ring
      _ ≤ |x - m| + |x - n| := abs_sub _ _
      _ ≤ 1 := by linarith
  rw [← Int.cast_abs] at apart
  exact_mod_cast apart

theorem IsRoundHalfEven.unique {n' : ℤ} (rounded : IsRoundHalfEven x n) (rounded' : IsRoundHalfEven x n') :
    n = n' := by
  by_contra differ
  have equal : |x - n'| = |x - n| := le_antisymm (rounded'.nearest n) (rounded.nearest n')
  obtain ⟨a, evenN⟩ := rounded.tie n' (Ne.symm differ) equal
  obtain ⟨b, evenN'⟩ := rounded'.tie n differ equal.symm
  have apart := abs_intCast_sub_le_one rounded.abs_sub_le_half rounded'.abs_sub_le_half
  rw [abs_le] at apart
  omega

/-- The distances of `x` to two different integers add up to at least one. -/
theorem half_le_abs_sub_of_ne (x : k) {m : ℤ} (differ : m ≠ n) :
    1 - |x - n| ≤ |x - m| := by
  have apart : (1 : k) ≤ |((m - n : ℤ) : k)| := by
    exact_mod_cast Int.one_le_abs (sub_ne_zero.mpr differ)
  calc 1 - |x - n| ≤ |((m - n : ℤ) : k)| - |x - n| := by linarith
    _ = |(x - n) - (x - m)| - |x - n| := by push_cast; congr 2; ring
    _ ≤ |x - m| := by linarith [abs_sub (x - n) (x - m)]

/-- An integer closer than one half is the rounding. -/
theorem isRoundHalfEven_of_abs_lt (close : |x - n| < 1 / 2) : IsRoundHalfEven x n where
  nearest m := by
    by_cases same : m = n
    · rw [same]
    · linarith [half_le_abs_sub_of_ne x same]
  tie m differ equal := by
    linarith [half_le_abs_sub_of_ne x differ]

/-- At a tie the even integer is the rounding. -/
theorem isRoundHalfEven_of_half (half : |x - n| = 1 / 2) (even : Even n) : IsRoundHalfEven x n where
  nearest m := by
    by_cases same : m = n
    · rw [same]
    · linarith [half_le_abs_sub_of_ne x same]
  tie _ _ _ := even

omit [IsOrderedRing k] [FloorRing k] in
theorem abs_neg_sub_neg (x : k) (m : ℤ) : |-x - ((-m : ℤ) : k)| = |x - m| := by
  rw [← abs_neg]
  push_cast
  congr 1
  ring

omit [IsOrderedRing k] [FloorRing k] in
theorem IsRoundHalfEven.neg (rounded : IsRoundHalfEven x n) : IsRoundHalfEven (-x) (-n) where
  nearest m := by
    have flipped := abs_neg_sub_neg x (-m)
    rw [neg_neg] at flipped
    rw [abs_neg_sub_neg, flipped]
    exact rounded.nearest (-m)
  tie m differ equal := by
    have flipped := abs_neg_sub_neg x (-m)
    rw [neg_neg] at flipped
    rw [abs_neg_sub_neg, flipped] at equal
    exact (rounded.tie (-m) (by omega) equal).neg

end HalfEven

omit [FloorRing k] in
/-- A double quotient, split at its two remainders, when the inner one ends in a tie. -/
theorem div_div_sub_of_tie {r b h P q : k} (nonzero : b ≠ 0) (nonzeroP : P ≠ 0) (half : 2 * h = P) :
    (r + b * (h + P * q)) / b / P - (q + 1) = r / (b * P) - 1 / 2 := by
  field_simp
  linear_combination b * half

section Distance

variable {P : ℤ} (positive : 0 < P) (z : ℤ)
include positive

omit [IsOrderedRing k] in
/-- A quotient exceeds its floor by the remainder over the divisor. -/
theorem intCast_div_sub_floor : (z : k) / P - (z / P : ℤ) = (z % P : ℤ) / P := by
  have split : (z : k) = (z % P : ℤ) + P * (z / P : ℤ) := by exact_mod_cast (Int.emod_add_mul_ediv z P).symm
  have nonzero : (P : k) ≠ 0 := by exact_mod_cast positive.ne'
  rw [split]
  field_simp
  ring

theorem abs_intCast_div_sub_floor : |(z : k) / P - (z / P : ℤ)| = (z % P : ℤ) / P := by
  rw [intCast_div_sub_floor positive, abs_of_nonneg]
  have remainder : (0 : k) ≤ (z % P : ℤ) := by exact_mod_cast Int.emod_nonneg z positive.ne'
  positivity

theorem abs_intCast_div_sub_floor_add_one :
    |(z : k) / P - ((z / P : ℤ) + 1 : ℤ)| = (P - z % P : ℤ) / P := by
  have nonzero : (P : k) ≠ 0 := by exact_mod_cast positive.ne'
  have below : (z % P : ℤ) < P := Int.emod_lt_of_pos z positive
  have gap : (0 : k) ≤ (P - z % P : ℤ) := by exact_mod_cast (by omega : (0 : ℤ) ≤ P - z % P)
  rw [← abs_neg, show -((z : k) / P - ((z / P : ℤ) + 1 : ℤ)) = 1 - ((z : k) / P - (z / P : ℤ)) by
      push_cast; ring, intCast_div_sub_floor positive, abs_of_nonneg]
  · push_cast
    field_simp
  · rw [show (1 : k) - (z % P : ℤ) / P = (P - z % P : ℤ) / P by push_cast; field_simp]
    positivity

omit [FloorRing k] in
theorem intCast_div_lt_half {r : ℤ} : (r : k) / P < 1 / 2 ↔ 2 * r < P := by
  have scale : (0 : k) < P := by exact_mod_cast positive
  rw [div_lt_iff₀ scale]
  constructor
  · intro below
    have doubled : ((2 * r : ℤ) : k) < P := by push_cast; linarith
    exact_mod_cast doubled
  · intro below
    have doubled : ((2 * r : ℤ) : k) < P := by exact_mod_cast below
    push_cast at doubled
    linarith

omit [FloorRing k] in
theorem intCast_div_eq_half {r : ℤ} : (r : k) / P = 1 / 2 ↔ 2 * r = P := by
  have scale : (0 : k) < P := by exact_mod_cast positive
  rw [div_eq_iff scale.ne']
  constructor
  · intro equal
    have doubled : ((2 * r : ℤ) : k) = P := by push_cast; linarith
    exact_mod_cast doubled
  · intro equal
    have doubled : ((2 * r : ℤ) : k) = P := by exact_mod_cast equal
    push_cast at doubled
    linarith

/-- A remainder below half the divisor rounds the quotient down. -/
theorem isRoundHalfEven_ediv (below : 2 * (z % P) < P) : IsRoundHalfEven ((z : k) / P) (z / P) :=
  isRoundHalfEven_of_abs_lt (by rw [abs_intCast_div_sub_floor positive, intCast_div_lt_half positive]; exact below)

/-- A remainder above half the divisor rounds the quotient up. -/
theorem isRoundHalfEven_ediv_add_one (above : P < 2 * (z % P)) :
    IsRoundHalfEven ((z : k) / P) (z / P + 1) := by
  apply isRoundHalfEven_of_abs_lt
  rw [abs_intCast_div_sub_floor_add_one positive, intCast_div_lt_half positive]
  omega

/-- A remainder of exactly half the divisor leaves the quotient and its successor
at one half each. -/
theorem abs_intCast_div_sub_of_tie (tie : 2 * (z % P) = P) :
    |(z : k) / P - (z / P : ℤ)| = 1 / 2 ∧ |(z : k) / P - ((z / P : ℤ) + 1 : ℤ)| = 1 / 2 := by
  rw [abs_intCast_div_sub_floor positive, abs_intCast_div_sub_floor_add_one positive,
    intCast_div_eq_half positive, intCast_div_eq_half positive]
  omega

/-- A truncated quotient that ends in a tie at the scale `P`, while the truncation
dropped a positive remainder: the exact value is above the tie, and rounds up. -/
theorem isRoundHalfEven_ediv_ediv_of_tie {N b : ℤ} (positiveB : 0 < b) (inexact : N % b ≠ 0)
    (tie : 2 * (N / b % P) = P) : IsRoundHalfEven ((N : k) / b / P) (N / b / P + 1) := by
  have splitN : (N : k) = (N % b : ℤ) + b * (N / b : ℤ) := by
    exact_mod_cast (Int.emod_add_mul_ediv N b).symm
  have splitQ : ((N / b : ℤ) : k) = (N / b % P : ℤ) + P * (N / b / P : ℤ) := by
    exact_mod_cast (Int.emod_add_mul_ediv (N / b) P).symm
  have half : (2 : k) * (N / b % P : ℤ) = P := by exact_mod_cast tie
  have scaleB : (0 : k) < b := by exact_mod_cast positiveB
  have scale : (1 : k) ≤ P := by exact_mod_cast (show 1 ≤ P by omega)
  have remainder : (0 : k) < (N % b : ℤ) := by
    exact_mod_cast lt_of_le_of_ne (Int.emod_nonneg N positiveB.ne') (Ne.symm inexact)
  have remainderBelow : ((N % b : ℤ) : k) < b := by exact_mod_cast Int.emod_lt_of_pos N positiveB
  -- the dropped remainder is a positive fraction of one step, below one
  have fraction : ((N % b : ℤ) : k) / (b * P) < 1 := by
    rw [div_lt_one (by positivity)]
    nlinarith
  apply isRoundHalfEven_of_abs_lt
  rw [splitN, splitQ, Int.cast_add, Int.cast_one,
    div_div_sub_of_tie scaleB.ne' (by positivity) half, abs_sub_lt_iff]
  have above : (0 : k) < ((N % b : ℤ) : k) / (b * P) := by positivity
  constructor <;> linarith

end Distance

section Truncate

omit [IsOrderedRing k] in
@[simp] theorem truncate_of_nonneg {x : k} (nonneg : 0 ≤ x) : truncate x = ⌊x⌋ := if_pos nonneg

theorem truncate_neg (x : k) : truncate (-x) = -truncate x := by
  unfold truncate
  rcases lt_trichotomy x 0 with negative | zero | positive
  · rw [if_pos (by linarith), if_neg (not_le.mpr negative), Int.floor_neg]
  · simp [zero]
  · rw [if_neg (by linarith), if_pos positive.le, Int.ceil_neg]

/-- Truncating twice, the second time by a positive integer, truncates the quotient. -/
theorem truncate_truncate_div {P : ℤ} (positive : 0 < P) (x : k) :
    truncate ((truncate x : k) / P) = truncate (x / P) := by
  have nonnegCase : ∀ y : k, 0 ≤ y → truncate ((truncate y : k) / P) = truncate (y / P) := by
    intro y nonneg
    have floorNonneg : (0 : k) ≤ (⌊y⌋ : k) := by exact_mod_cast Int.floor_nonneg.mpr nonneg
    rw [truncate_of_nonneg nonneg, truncate_of_nonneg (by positivity), truncate_of_nonneg (by positivity),
      Int.floor_div_cast_of_nonneg positive.le, Int.floor_div_cast_of_nonneg positive.le, Int.floor_intCast]
  rcases le_or_gt 0 x with nonneg | negative
  · exact nonnegCase x nonneg
  · have flipped := nonnegCase (-x) (by linarith)
    rw [truncate_neg, Int.cast_neg, neg_div, truncate_neg, neg_div, truncate_neg] at flipped
    exact neg_inj.mp flipped

/-- Truncated integer division is the truncation of the quotient. -/
theorem truncate_intCast_div (z : ℤ) {d : ℤ} (nonzero : d ≠ 0) : truncate ((z : k) / d) = z.tdiv d := by
  have positiveCase : ∀ y e : ℤ, 0 < e → truncate ((y : k) / e) = y.tdiv e := by
    intro y e positive
    rcases le_or_gt 0 y with nonneg | negative
    · rw [truncate_of_nonneg (by positivity), Int.floor_div_cast_of_nonneg positive.le, Int.floor_intCast,
        Int.tdiv_eq_ediv_of_nonneg nonneg]
    · have flipped : truncate (((-y : ℤ) : k) / e) = (-y).tdiv e := by
        rw [truncate_of_nonneg (by push_cast; exact div_nonneg (by linarith [show (y : k) < 0 by exact_mod_cast negative]) (by exact_mod_cast positive.le)),
          Int.floor_div_cast_of_nonneg positive.le, Int.floor_intCast, Int.tdiv_eq_ediv_of_nonneg (by omega)]
      rw [Int.cast_neg, neg_div, truncate_neg, Int.neg_tdiv] at flipped
      exact neg_inj.mp flipped
  rcases lt_or_gt_of_ne nonzero with negative | positive
  · have flipped := positiveCase z (-d) (by omega)
    rw [Int.cast_neg, div_neg, truncate_neg, Int.tdiv_neg] at flipped
    exact neg_inj.mp flipped
  · exact positiveCase z d positive

end Truncate

end Rounding
