import CoreSdk.Types.DecSortable

/-!
# Powers of decimals

`Dec.Power` (`types/dec.go`) raises a decimal to a `uint64` power by repeated
squaring: each turn of its loop squares the running value and, at an odd
exponent, first multiplies it into the product so far; the result is the last
running value times that product. Every step is a `Mul`, which rounds the
exact product to the `10^-18` grid and panics past the bound.

When each product the loop forms lies on the grid and within the bound, no
`Mul` rounds, and `Power` returns the exact power (`power_eq_pow`). The loop
forms only powers up to the exponent, so a decimal whose powers up to the
exponent lie on the grid, an integer or one of `j` fraction digits with
`j * n ≤ 18`, is such a case.
-/

namespace CoreSdk.Types.Dec

open Go Go.Big Rounding

set_option autoImplicit false

/-- The loop of `Power` from `i`, with the running value `d` and the product
`tmp` so far; the `uint64` counter never wraps, so it is a `Nat` here. -/
def powerLoop (d tmp : Dec) (i : Nat) : Result Dec :=
  if i > 1 then
    if i % 2 = 0 then do
      let d ← mul d d
      powerLoop d tmp (i / 2)
    else do
      let tmp ← mul tmp d
      let d ← mul d d
      powerLoop d tmp ((i - 1) / 2)
  else mul d tmp
termination_by i

/-- `Dec.Power`. -/
def power (d : Dec) (power : UInt64) : Result Dec :=
  if power = 0 then pure oneDec else powerLoop d oneDec power.toNat

/-- The exponents of the products the loop forms from `i`, the running value
being the power `c` of the base and the product so far the power `a`. -/
def powerExponents (i c a : Nat) : List Nat :=
  if i > 1 then
    if i % 2 = 0 then 2 * c :: powerExponents (i / 2) (2 * c) a
    else (a + c) :: 2 * c :: powerExponents ((i - 1) / 2) (2 * c) (a + c)
  else [c + a]
termination_by i

/-- The exponents of the products `Power` forms: none for the zero power. -/
def powerProducts (power : UInt64) : List Nat := if power = 0 then [] else powerExponents power.toNat 1 0

/-- A power of a value that lies on the grid of `Dec` and within the bound of `Mul`. -/
def PowerOnGrid (x : ℚ) (m : Nat) : Prop :=
  ∃ k : Int, (k : ℚ) = x ^ m * 10 ^ precision ∧ bitLen k ≤ 255 + decimalPrecisionBits

theorem oneDec_toRat : oneDec.toRat = 1 := by
  simp [oneDec, toRat]

theorem power_zero (d : Dec) : power d 0 = .ok oneDec := by
  rw [power, if_pos rfl]
  rfl

/-- Every product the loop forms is a power up to the exponent. -/
theorem le_of_mem_powerExponents (i c a : Nat) (positive : 1 ≤ i) :
    ∀ m ∈ powerExponents i c a, m ≤ a + c * i := by
  induction i using Nat.strong_induction_on generalizing c a with
  | _ i induction =>
    intro m member
    rw [powerExponents] at member
    split_ifs at member with several even
    · rcases List.mem_cons.mp member with rfl | later
      · have : c * 2 ≤ c * i := Nat.mul_le_mul_left c several
        omega
      · have bound := induction (i / 2) (by omega) (2 * c) a (by omega) m later
        have halves : 2 * c * (i / 2) = c * i := by
          calc 2 * c * (i / 2) = c * (2 * (i / 2)) := by ring
            _ = c * i := by rw [show 2 * (i / 2) = i by omega]
        omega
    · rcases List.mem_cons.mp member with rfl | member
      · have : c * 1 ≤ c * i := Nat.mul_le_mul_left c positive
        omega
      rcases List.mem_cons.mp member with rfl | later
      · have : c * 2 ≤ c * i := Nat.mul_le_mul_left c several
        omega
      · have bound := induction ((i - 1) / 2) (by omega) (2 * c) (a + c) (by omega) m later
        have halves : a + c + 2 * c * ((i - 1) / 2) = a + c * i := by
          calc a + c + 2 * c * ((i - 1) / 2) = a + c * (1 + 2 * ((i - 1) / 2)) := by ring
            _ = a + c * i := by rw [show 1 + 2 * ((i - 1) / 2) = i by omega]
        omega
    · rw [List.mem_singleton.mp member]
      have one : i = 1 := by omega
      rw [one, Nat.mul_one, Nat.add_comm]

/-- The loop from a running power `c` and a product `a` of a base `x` returns the
power `a + c * i`, while every product it forms is on the grid. -/
theorem powerLoop_eq (x : ℚ) (i : Nat) (positive : 1 ≤ i) :
    ∀ (d tmp : Dec) (c a : Nat), d.toRat = x ^ c → tmp.toRat = x ^ a →
      (∀ m ∈ powerExponents i c a, PowerOnGrid x m) →
      ∃ r, powerLoop d tmp i = .ok r ∧ r.toRat = x ^ (a + c * i) := by
  induction i using Nat.strong_induction_on with
  | _ i induction =>
    intro d tmp c a running product exact
    rw [powerExponents] at exact
    rw [powerLoop]
    split_ifs at exact ⊢ with several even
    · -- an even exponent: the running value is squared
      obtain ⟨k, grid, fits⟩ := exact (2 * c) List.mem_cons_self
      obtain ⟨squared, squaredValue⟩ :=
        mul_of_onGrid (show d.toRat * d.toRat = x ^ (2 * c) by rw [running, ← pow_add, two_mul]) grid fits
      obtain ⟨r, loop, value⟩ := induction (i / 2) (by omega) (by omega) ⟨k⟩ tmp (2 * c) a squaredValue product
        fun m later => exact m (List.mem_cons_of_mem _ later)
      have halves : 2 * c * (i / 2) = c * i := by
        calc 2 * c * (i / 2) = c * (2 * (i / 2)) := by ring
          _ = c * i := by rw [show 2 * (i / 2) = i by omega]
      refine ⟨r, ?_, ?_⟩
      · rw [squared, ok_bind, loop]
      · rw [value, halves]
    · -- an odd exponent: the running value goes into the product, then is squared
      obtain ⟨k, grid, fits⟩ := exact (a + c) List.mem_cons_self
      obtain ⟨multiplied, multipliedValue⟩ :=
        mul_of_onGrid (show tmp.toRat * d.toRat = x ^ (a + c) by rw [product, running, ← pow_add]) grid fits
      obtain ⟨k', grid', fits'⟩ := exact (2 * c) (List.mem_cons_of_mem _ List.mem_cons_self)
      obtain ⟨squared, squaredValue⟩ :=
        mul_of_onGrid (show d.toRat * d.toRat = x ^ (2 * c) by rw [running, ← pow_add, two_mul]) grid' fits'
      obtain ⟨r, loop, value⟩ := induction ((i - 1) / 2) (by omega) (by omega) ⟨k'⟩ ⟨k⟩ (2 * c) (a + c)
        squaredValue multipliedValue fun m later => exact m (List.mem_cons_of_mem _ (List.mem_cons_of_mem _ later))
      have halves : a + c + 2 * c * ((i - 1) / 2) = a + c * i := by
        calc a + c + 2 * c * ((i - 1) / 2) = a + c * (1 + 2 * ((i - 1) / 2)) := by ring
          _ = a + c * i := by rw [show 1 + 2 * ((i - 1) / 2) = i by omega]
      refine ⟨r, ?_, ?_⟩
      · rw [multiplied, ok_bind, squared, ok_bind, loop]
      · rw [value, halves]
    · -- the last turn multiplies the running value into the product
      have one : i = 1 := by omega
      obtain ⟨k, grid, fits⟩ := exact (c + a) List.mem_cons_self
      obtain ⟨multiplied, multipliedValue⟩ :=
        mul_of_onGrid (show d.toRat * tmp.toRat = x ^ (c + a) by rw [running, product, ← pow_add]) grid fits
      refine ⟨⟨k⟩, multiplied, ?_⟩
      rw [multipliedValue, one, Nat.mul_one, Nat.add_comm]

theorem power_eq_pow (d : Dec) (n : UInt64) :
    ((∀ m ∈ powerProducts n, PowerOnGrid d.toRat m) →
      ∃ r, power d n = .ok r ∧ r.toRat = d.toRat ^ n.toNat) ∧
    ((∀ m ≤ n.toNat, PowerOnGrid d.toRat m) → ∃ r, power d n = .ok r ∧ r.toRat = d.toRat ^ n.toNat) := by
  -- the exact run, from the products the loop forms
  have exactRun : (∀ m ∈ powerProducts n, PowerOnGrid d.toRat m) →
      ∃ r, power d n = .ok r ∧ r.toRat = d.toRat ^ n.toNat := by
    intro exact
    by_cases zero : n = 0
    · subst zero
      exact ⟨oneDec, power_zero d, by simp [oneDec_toRat]⟩
    · have positive : 1 ≤ n.toNat := by
        have : n.toNat ≠ 0 := fun same => zero (UInt64.toNat_inj.mp (by rw [same]; rfl))
        omega
      rw [powerProducts, if_neg zero] at exact
      obtain ⟨r, loop, value⟩ := powerLoop_eq d.toRat n.toNat positive d oneDec 1 0 (pow_one _).symm
        (by rw [oneDec_toRat, pow_zero]) exact
      refine ⟨r, ?_, ?_⟩
      · rw [power, if_neg zero, loop]
      · rw [value, Nat.zero_add, Nat.one_mul]
  refine ⟨exactRun, fun onGrid => exactRun fun m member => onGrid m ?_⟩
  -- every product formed is a power up to the exponent
  by_cases zero : n = 0
  · rw [powerProducts, if_pos zero] at member
    simp at member
  · rw [powerProducts, if_neg zero] at member
    have positive : 1 ≤ n.toNat := by
      have : n.toNat ≠ 0 := fun same => zero (UInt64.toNat_inj.mp (by rw [same]; rfl))
      omega
    have bound := le_of_mem_powerExponents n.toNat 1 0 positive m member
    omega

/-- `1.5^3`: the loop forms `1.5`, `2.25` and `3.375`, all on the grid. -/
theorem power_eq_pow_three_halves :
    (∀ m ∈ powerProducts 3, PowerOnGrid (⟨15 * 10 ^ 17⟩ : Dec).toRat m) ∧
      power ⟨15 * 10 ^ 17⟩ 3 = .ok ⟨3375 * 10 ^ 15⟩ := by
  have formed : powerProducts 3 = [1, 2, 3] := by
    simp [powerProducts, powerExponents]
  have exact : ∀ m ∈ powerProducts 3, PowerOnGrid (⟨15 * 10 ^ 17⟩ : Dec).toRat m := by
    rw [formed]
    intro m member
    simp only [List.mem_cons, List.not_mem_nil, or_false] at member
    rcases member with rfl | rfl | rfl
    · exact ⟨15 * 10 ^ 17, by norm_num [toRat, precision], by decide⟩
    · exact ⟨225 * 10 ^ 16, by norm_num [toRat, precision], by decide⟩
    · exact ⟨3375 * 10 ^ 15, by norm_num [toRat, precision], by decide⟩
  refine ⟨exact, ?_⟩
  obtain ⟨r, run, value⟩ := (power_eq_pow ⟨15 * 10 ^ 17⟩ 3).1 exact
  rw [show (3 : UInt64).toNat = 3 from rfl] at value
  have same : r = ⟨3375 * 10 ^ 15⟩ := by
    cases r with
    | mk i =>
      simp only [toRat, precision] at value
      norm_num at value
      have : (i : ℚ) = 3375 * 10 ^ 15 := by linarith
      rw [Dec.mk.injEq]
      exact_mod_cast this
  rw [run, same]

end CoreSdk.Types.Dec
