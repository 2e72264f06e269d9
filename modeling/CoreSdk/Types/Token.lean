import CoreSdk.Types.DecCoinConvert
import CoreSdk.Go.Strings

/-!
# Units of a token

`CoinType` (`types/coin_type.go`) relates the two units of a token, the main
unit of scale `0` and the min unit of scale `s`, and converts a coin between
them with `Dec` arithmetic: by `10^0 / 10^s` toward the main unit, by
`10^s / 10^0` back. `Token.GetCoinType` (`types/token.go`) builds it from a token.

From the min unit the conversion is exact for `s ≤ 18`, and it comes back to the
coin. A coin already in the main unit is not returned as it is: `ConvertToMainCoin`
returns `DecCoin{}`, which has no denom (`convertToMainCoin_exact_or_empty`).

`DefaultTokenManager` (`types/token_manager.go`) converts between `iris` and
`uiris` by a factor `10^6`. Its `ToMainCoin` allocates its result with
`make(DecCoins, len(coins), 0)`, a length above the capacity for every
non-empty argument, so it panics on each (`toMainCoin_panics_unless_empty`).
-/

namespace CoreSdk.Types

open Go Go.Big Go.Strings Rounding

set_option autoImplicit false

/-- `Unit`: a denom and its scale (Lean's `Unit` is the unit type). -/
structure CoinUnit where
  denom : String
  scale : UInt8
  deriving DecidableEq, Repr

/-- `NewUnit`. -/
def newUnit (denom : String) (scale : UInt8) : CoinUnit := ⟨denom, scale⟩

/-- `Unit.GetScaleFactor`: `1 * 10^scale`. -/
def CoinUnit.getScaleFactor (u : CoinUnit) : Result Int := SdkInt.newIntWithDecimal 1 u.scale.toNat

/-- `CoinType`, with the two units the conversions read; its name and
description are not read. -/
structure CoinType where
  minUnit : CoinUnit
  mainUnit : CoinUnit
  deriving DecidableEq, Repr

/-- `Token`, with the fields `GetCoinType` reads into the units. -/
structure Token where
  symbol : String
  scale : UInt32
  minUnit : String
  deriving DecidableEq, Repr

/-- `Token.GetCoinType`: `uint8(t.Scale)` keeps the low byte of the scale. -/
def Token.getCoinType (t : Token) : CoinType :=
  ⟨newUnit t.minUnit t.scale.toUInt8, newUnit t.symbol 0⟩

namespace CoinType

variable (whiteSpace : Char → Bool)

/-- `CoinType.isMainUnit`. -/
def isMainUnit (ct : CoinType) (name : String) : Bool := ct.mainUnit.denom == trimSpace whiteSpace name

/-- `CoinType.isMinUnit`. -/
def isMinUnit (ct : CoinType) (name : String) : Bool := ct.minUnit.denom == trimSpace whiteSpace name

/-- `CoinType.hasUnit`. -/
def hasUnit (ct : CoinType) (name : String) : Bool := ct.isMainUnit whiteSpace name || ct.isMinUnit whiteSpace name

/-- `CoinType.ConvertToMainCoin`; the error it returns is always nil. -/
def convertToMainCoin (ct : CoinType) (coin : Coin) : Result DecCoin :=
  if !ct.hasUnit whiteSpace coin.denom then do
    let amount ← Dec.newDecFromInt coin.amount
    pure ⟨coin.denom, amount⟩
  else if ct.isMainUnit whiteSpace coin.denom then pure zeroDecCoin
  else do
    -- dest amount = src amount * (10^(dest scale) / 10^(src scale))
    let dstScale ← Dec.newDecFromInt (← ct.mainUnit.getScaleFactor)
    let srcScale ← Dec.newDecFromInt (← ct.minUnit.getScaleFactor)
    let amount ← Dec.newDecFromInt coin.amount
    let product ← Dec.mul amount dstScale
    let amt ← Dec.quo product srcScale
    DecCoin.newDecCoinFromDec ct.mainUnit.denom amt

/-- `CoinType.ConvertToMinCoin`; the error it returns is always nil. -/
def convertToMinCoin (ct : CoinType) (coin : DecCoin) : Result Coin :=
  if !ct.hasUnit whiteSpace coin.denom then do
    let amount ← Dec.truncateInt coin.amount
    pure ⟨coin.denom, amount⟩
  else if ct.isMinUnit whiteSpace coin.denom then do
    let split ← DecCoin.truncateDecimal coin
    pure split.1
  else do
    -- dest amount = src amount * (10^(dest scale) / 10^(src scale))
    let srcScale ← Dec.newDecFromInt (← ct.mainUnit.getScaleFactor)
    let dstScale ← Dec.newDecFromInt (← ct.minUnit.getScaleFactor)
    let amount := coin.amount
    let product ← Dec.mul amount dstScale
    let amt ← Dec.quo product srcScale
    Coin.newCoin ct.minUnit.denom (← Dec.roundInt amt)

/-! ### The branches of the conversions -/

/-- A valid denom is its own trim, so a unit test on it is a comparison of denoms. -/
theorem beq_trimSpace_of_valid (denom : String) {name : String} (valid : validateDenom name = .ok ()) :
    (denom == trimSpace whiteSpace name) = decide (denom = name) := by
  obtain ⟨first, rest, chars, -, printable⟩ := matchesDenom_chars (validateDenom_eq_ok valid)
  rw [trimSpace_of_printable whiteSpace name (by rw [chars]; exact printable)]
  exact beq_eq_decide denom name

theorem getScaleFactor_of_le (u : CoinUnit) (small : u.scale.toNat ≤ 18) :
    u.getScaleFactor = .ok (10 ^ u.scale.toNat) := by
  have fits : bitLen (1 * 10 ^ u.scale.toNat) ≤ SdkInt.maxBitLen := by
    rw [bitLen_le_iff, one_mul, Int.natAbs_pow, SdkInt.maxBitLen]
    calc Int.natAbs 10 ^ u.scale.toNat ≤ 10 ^ 18 := Nat.pow_le_pow_right (by decide) small
      _ < 2 ^ 255 := by norm_num
  rw [CoinUnit.getScaleFactor, SdkInt.newIntWithDecimal_of_fits 1 _ fits, one_mul]

/-- The main unit, of scale `0`, has the factor one. -/
theorem getScaleFactor_of_zero (u : CoinUnit) (zero : u.scale = 0) : u.getScaleFactor = .ok 1 := by
  rw [getScaleFactor_of_le u (by rw [zero]; decide), zero]
  rfl

/-- An amount within the bound of `Int`, scaled by at most `10^18`, is within the bound of `Dec`. -/
theorem bitLen_mul_pow_le {a : Int} (fits : bitLen a ≤ SdkInt.maxBitLen) {e : Nat} (small : e ≤ 18) :
    bitLen (a * 10 ^ e) ≤ 255 + Dec.decimalPrecisionBits := by
  rw [bitLen_le_iff, SdkInt.maxBitLen] at fits
  rw [bitLen_le_iff, Int.natAbs_mul, Int.natAbs_pow, Dec.decimalPrecisionBits, pow_add]
  have scale : Int.natAbs 10 ^ e < 2 ^ 60 :=
    calc Int.natAbs 10 ^ e ≤ 10 ^ 18 := Nat.pow_le_pow_right (by decide) small
      _ < 2 ^ 60 := by norm_num
  exact Nat.mul_lt_mul_of_lt_of_lt fits scale

/-- A coin in the main unit is the one case of `ConvertToMainCoin` that ignores the coin. -/
theorem convertToMainCoin_of_main (ct : CoinType) (coin : Coin) (valid : validateDenom coin.denom = .ok ())
    (same : coin.denom = ct.mainUnit.denom) : ct.convertToMainCoin whiteSpace coin = .ok zeroDecCoin := by
  have main : ct.isMainUnit whiteSpace coin.denom = true := by
    rw [isMainUnit, beq_trimSpace_of_valid whiteSpace _ valid, same]
    exact decide_eq_true rfl
  rw [convertToMainCoin, hasUnit, main, Bool.true_or, Bool.not_true, if_neg Bool.false_ne_true, if_pos rfl]
  rfl

/-- The amount of a min-unit coin on the grid of `Dec`, read in the main unit. -/
theorem cast_mul_pow_sub (a : Int) {s : Nat} (small : s ≤ Dec.precision) :
    ((a * 10 ^ (Dec.precision - s) : Int) : ℚ) = a / 10 ^ s * 10 ^ Dec.precision := by
  rw [show (10 : ℚ) ^ Dec.precision = 10 ^ s * 10 ^ (Dec.precision - s) by
    rw [← pow_add, Nat.add_sub_cancel' small]]
  push_cast
  field_simp

theorem toRat_mul_pow_sub (a : Int) {s : Nat} (small : s ≤ Dec.precision) :
    (⟨a * 10 ^ (Dec.precision - s)⟩ : Dec).toRat = a / 10 ^ s := by
  rw [Dec.toRat, cast_mul_pow_sub a small]
  field_simp

/-- From the min unit of scale `s ≤ 18` the amount `a` becomes `a * 10^-s`,
on the grid of `Dec`. -/
theorem convertToMainCoin_of_min (ct : CoinType) (coin : Coin) (mainScale : ct.mainUnit.scale = 0)
    (minScale : ct.minUnit.scale.toNat ≤ 18) (valid : validateDenom coin.denom = .ok ())
    (mainValid : validateDenom ct.mainUnit.denom = .ok ()) (nonneg : 0 ≤ coin.amount)
    (fits : bitLen coin.amount ≤ SdkInt.maxBitLen) (same : coin.denom = ct.minUnit.denom)
    (other : coin.denom ≠ ct.mainUnit.denom) :
    ct.convertToMainCoin whiteSpace coin =
      .ok ⟨ct.mainUnit.denom, ⟨coin.amount * 10 ^ (Dec.precision - ct.minUnit.scale.toNat)⟩⟩ := by
  have notMain : ct.isMainUnit whiteSpace coin.denom = false := by
    rw [isMainUnit, beq_trimSpace_of_valid whiteSpace _ valid, decide_eq_false (Ne.symm other)]
  have min : ct.isMinUnit whiteSpace coin.denom = true := by
    rw [isMinUnit, beq_trimSpace_of_valid whiteSpace _ valid, same]
    exact decide_eq_true rfl
  -- the product by one, then the quotient by `10^s`, both on the grid
  have product : Dec.mul ⟨coin.amount * 10 ^ Dec.precision⟩ ⟨1 * 10 ^ Dec.precision⟩ =
      .ok ⟨coin.amount * 10 ^ Dec.precision⟩ :=
    (Dec.mul_of_onGrid (show Dec.toRat ⟨coin.amount * 10 ^ Dec.precision⟩ * Dec.toRat ⟨1 * 10 ^ Dec.precision⟩ =
      coin.amount by rw [Dec.toRat_scaled, Dec.toRat_scaled]; simp) (by push_cast; rfl)
      (bitLen_mul_pow_le fits le_rfl)).1
  have quotient : Dec.quo ⟨coin.amount * 10 ^ Dec.precision⟩ ⟨10 ^ ct.minUnit.scale.toNat * 10 ^ Dec.precision⟩ =
      .ok ⟨coin.amount * 10 ^ (Dec.precision - ct.minUnit.scale.toNat)⟩ :=
    (Dec.quo_of_onGrid (show Dec.toRat ⟨coin.amount * 10 ^ Dec.precision⟩ /
        Dec.toRat ⟨10 ^ ct.minUnit.scale.toNat * 10 ^ Dec.precision⟩ = coin.amount / 10 ^ ct.minUnit.scale.toNat by
          rw [Dec.toRat_scaled, Dec.toRat_scaled]; push_cast; rfl) (by positivity)
      (cast_mul_pow_sub coin.amount minScale)
      (bitLen_mul_pow_le fits (Nat.sub_le _ _))).1
  rw [convertToMainCoin, hasUnit, notMain, min, Bool.false_or, Bool.not_true, if_neg Bool.false_ne_true,
    if_neg Bool.false_ne_true, getScaleFactor_of_zero _ mainScale, ok_bind, Dec.newDecFromInt_eq, ok_bind,
    getScaleFactor_of_le _ minScale, ok_bind, Dec.newDecFromInt_eq, ok_bind, Dec.newDecFromInt_eq, ok_bind, product,
    ok_bind, quotient, ok_bind]
  exact DecCoin.newDecCoinFromDec_of_valid mainValid (by positivity)

/-- From the main unit, `ConvertToMinCoin` multiplies the amount by `10^s`,
divides it by one and rounds it to a coin of the min unit. -/
theorem convertToMinCoin_main_eq (ct : CoinType) (mainScale : ct.mainUnit.scale = 0)
    (minScale : ct.minUnit.scale.toNat ≤ 18) (mainValid : validateDenom ct.mainUnit.denom = .ok ())
    (other : ct.minUnit.denom ≠ ct.mainUnit.denom) (amount : Dec) :
    ct.convertToMinCoin whiteSpace ⟨ct.mainUnit.denom, amount⟩ = (do
      let product ← Dec.mul amount ⟨10 ^ ct.minUnit.scale.toNat * 10 ^ Dec.precision⟩
      let amt ← Dec.quo product ⟨1 * 10 ^ Dec.precision⟩
      Coin.newCoin ct.minUnit.denom (← Dec.roundInt amt)) := by
  have main : ct.isMainUnit whiteSpace ct.mainUnit.denom = true := by
    rw [isMainUnit, beq_trimSpace_of_valid whiteSpace _ mainValid]
    exact decide_eq_true rfl
  have notMin : ct.isMinUnit whiteSpace ct.mainUnit.denom = false := by
    rw [isMinUnit, beq_trimSpace_of_valid whiteSpace _ mainValid, decide_eq_false other]
  rw [convertToMinCoin, hasUnit, main, Bool.true_or, Bool.not_true, if_neg Bool.false_ne_true, notMin,
    if_neg Bool.false_ne_true, getScaleFactor_of_zero _ mainScale, ok_bind, Dec.newDecFromInt_eq, ok_bind,
    getScaleFactor_of_le _ minScale, ok_bind, Dec.newDecFromInt_eq, ok_bind]

/-- Back from the main unit: the amount `a * 10^-s` times `10^s` is `a` again,
which `RoundInt` returns as it is. -/
theorem convertToMinCoin_of_main (ct : CoinType) (mainScale : ct.mainUnit.scale = 0)
    (minScale : ct.minUnit.scale.toNat ≤ 18) (mainValid : validateDenom ct.mainUnit.denom = .ok ())
    (minValid : validateDenom ct.minUnit.denom = .ok ()) (other : ct.minUnit.denom ≠ ct.mainUnit.denom)
    (amount : Int) (nonneg : 0 ≤ amount) (fits : bitLen amount ≤ SdkInt.maxBitLen) :
    ct.convertToMinCoin whiteSpace
        ⟨ct.mainUnit.denom, ⟨amount * 10 ^ (Dec.precision - ct.minUnit.scale.toNat)⟩⟩ =
      .ok ⟨ct.minUnit.denom, amount⟩ := by
  -- the product by `10^s`, then the quotient by one, both on the grid
  have product : Dec.mul ⟨amount * 10 ^ (Dec.precision - ct.minUnit.scale.toNat)⟩
      ⟨10 ^ ct.minUnit.scale.toNat * 10 ^ Dec.precision⟩ = .ok ⟨amount * 10 ^ Dec.precision⟩ :=
    (Dec.mul_of_onGrid (show Dec.toRat ⟨amount * 10 ^ (Dec.precision - ct.minUnit.scale.toNat)⟩ *
        Dec.toRat ⟨10 ^ ct.minUnit.scale.toNat * 10 ^ Dec.precision⟩ = amount by
          rw [toRat_mul_pow_sub amount minScale, Dec.toRat_scaled]; push_cast; field_simp)
      (by push_cast; rfl) (bitLen_mul_pow_le fits le_rfl)).1
  have quotient : Dec.quo ⟨amount * 10 ^ Dec.precision⟩ ⟨1 * 10 ^ Dec.precision⟩ =
      .ok ⟨amount * 10 ^ Dec.precision⟩ :=
    (Dec.quo_of_onGrid (show Dec.toRat ⟨amount * 10 ^ Dec.precision⟩ / Dec.toRat ⟨1 * 10 ^ Dec.precision⟩ =
        amount by rw [Dec.toRat_scaled, Dec.toRat_scaled]; simp) (by positivity) (by push_cast; rfl)
      (bitLen_mul_pow_le fits le_rfl)).1
  rw [convertToMinCoin_main_eq whiteSpace ct mainScale minScale mainValid other]
  simp only [product, quotient, ok_bind]
  rw [Dec.roundInt_scaled amount fits, ok_bind]
  exact Coin.newCoin_of_valid (validateDenom_eq_ok minValid) nonneg

/-- The product `Mul` forms from an amount and `10^s`, read back. -/
theorem toRat_mul_pow (d : Dec) (s : Nat) : (⟨d.i * 10 ^ s⟩ : Dec).toRat = d.toRat * 10 ^ s := by
  rw [Dec.toRat, Dec.toRat]
  push_cast
  ring

/-- An integer is the value of its own `Dec` on the grid. -/
theorem cast_eq_toRat_mul (k : Int) : (k : ℚ) = (⟨k⟩ : Dec).toRat * 10 ^ Dec.precision := by
  rw [Dec.toRat]
  field_simp

end CoinType

/-- For a coin type with main scale `0` and min scale `s ≤ 18`, and a valid
coin: a coin in the main unit comes back as `DecCoin{}`, whose denom is empty
and so not the main denom; a coin in the min unit becomes its amount times
`10^-s` in the main denom, exactly, and `ConvertToMinCoin` gives the coin back. -/
theorem convertToMainCoin_exact_or_empty (whiteSpace : Char → Bool) (ct : CoinType) (coin : Coin)
    (mainScale : ct.mainUnit.scale = 0) (minScale : ct.minUnit.scale.toNat ≤ 18)
    (valid : validateDenom coin.denom = .ok ()) (nonneg : 0 ≤ coin.amount)
    (fits : bitLen coin.amount ≤ SdkInt.maxBitLen) :
    (coin.denom = ct.mainUnit.denom →
      ct.convertToMainCoin whiteSpace coin = .ok zeroDecCoin ∧ zeroDecCoin.denom ≠ ct.mainUnit.denom) ∧
    (coin.denom = ct.minUnit.denom → coin.denom ≠ ct.mainUnit.denom →
      validateDenom ct.mainUnit.denom = .ok () →
      ∃ amt : Dec, ct.convertToMainCoin whiteSpace coin = .ok ⟨ct.mainUnit.denom, amt⟩ ∧
        amt.toRat = coin.amount / 10 ^ ct.minUnit.scale.toNat ∧
        ct.convertToMinCoin whiteSpace ⟨ct.mainUnit.denom, amt⟩ = .ok coin) := by
  refine ⟨fun same => ⟨CoinType.convertToMainCoin_of_main whiteSpace ct coin valid same, ?_⟩,
    fun same other mainValid => ?_⟩
  · -- a valid denom has at least three characters
    rw [← same]
    intro empty
    have accepted := validateDenom_eq_ok valid
    rw [← empty] at accepted
    exact absurd accepted (by decide)
  · refine ⟨_, CoinType.convertToMainCoin_of_min whiteSpace ct coin mainScale minScale valid mainValid nonneg fits
      same other, CoinType.toRat_mul_pow_sub coin.amount minScale, ?_⟩
    rw [CoinType.convertToMinCoin_of_main whiteSpace ct mainScale minScale mainValid (same ▸ valid) (same ▸ other)
      coin.amount nonneg fits, ← same]

/-- The `iris` token of scale `6`: one `iris` comes back from `ConvertToMainCoin`
as `DecCoin{}`. -/
theorem convertToMainCoin_exact_or_empty_iris :
    (Token.getCoinType ⟨"iris", 6, "uiris"⟩).convertToMainCoin (fun _ => false) ⟨"iris", 1⟩ = .ok zeroDecCoin :=
  ((convertToMainCoin_exact_or_empty (fun _ => false) (Token.getCoinType ⟨"iris", 6, "uiris"⟩) ⟨"iris", 1⟩
    rfl (by decide) (by decide) (by decide) (by decide)).1 rfl).1

/-! ### Rounding into the min unit, and the denoms of neither unit -/

/-- From the main unit, for any non-negative amount `d` within the bound of
`Int`: `Mul` by `10^s` and `Quo` by one are exact, and `RoundInt` rounds
the amount in the min unit, `d * 10^s`, half to even. -/
theorem convertToMinCoin_rounds_half_even (whiteSpace : Char → Bool) (ct : CoinType)
    (mainScale : ct.mainUnit.scale = 0) (minScale : ct.minUnit.scale.toNat ≤ 18)
    (mainValid : validateDenom ct.mainUnit.denom = .ok ()) (minValid : validateDenom ct.minUnit.denom = .ok ())
    (other : ct.minUnit.denom ≠ ct.mainUnit.denom) (d : Dec) (nonneg : 0 ≤ d.i)
    (fits : bitLen d.i ≤ SdkInt.maxBitLen) :
    ∃ n : Int, ct.convertToMinCoin whiteSpace ⟨ct.mainUnit.denom, d⟩ = .ok ⟨ct.minUnit.denom, n⟩ ∧
      IsRoundHalfEven (d.toRat * 10 ^ ct.minUnit.scale.toNat) n := by
  have scaledFits := CoinType.bitLen_mul_pow_le fits minScale
  -- the product by `10^s` and the quotient by one are on the grid
  have product : Dec.mul d ⟨10 ^ ct.minUnit.scale.toNat * 10 ^ Dec.precision⟩ =
      .ok ⟨d.i * 10 ^ ct.minUnit.scale.toNat⟩ :=
    (Dec.mul_of_onGrid (by rw [Dec.toRat_scaled, CoinType.toRat_mul_pow]; push_cast; rfl)
      (CoinType.cast_eq_toRat_mul _) scaledFits).1
  have quotient : Dec.quo ⟨d.i * 10 ^ ct.minUnit.scale.toNat⟩ ⟨1 * 10 ^ Dec.precision⟩ =
      .ok ⟨d.i * 10 ^ ct.minUnit.scale.toNat⟩ :=
    (Dec.quo_of_onGrid (by rw [Dec.toRat_scaled]; simp) (by positivity) (CoinType.cast_eq_toRat_mul _)
      scaledFits).1
  -- in the min unit the amount lies between zero and `d.i`, as `s ≤ 18`
  have inMin : 0 ≤ (⟨d.i * 10 ^ ct.minUnit.scale.toNat⟩ : Dec).toRat := by
    rw [Dec.toRat]
    have : (0 : ℚ) ≤ d.i := by exact_mod_cast nonneg
    positivity
  have belowD : (⟨d.i * 10 ^ ct.minUnit.scale.toNat⟩ : Dec).toRat ≤ d.i := by
    have scaleLe : (10 : ℚ) ^ ct.minUnit.scale.toNat ≤ 10 ^ Dec.precision :=
      pow_le_pow_right₀ (by norm_num) minScale
    have : (0 : ℚ) ≤ d.i := by exact_mod_cast nonneg
    rw [Dec.toRat, div_le_iff₀ (by positivity)]
    push_cast
    exact mul_le_mul_of_nonneg_left scaleLe this
  obtain ⟨n, rounds, rounded, nonnegN⟩ := Dec.roundInt_of_le inMin belowD fits
  refine ⟨n, ?_, by rwa [CoinType.toRat_mul_pow] at rounded⟩
  rw [CoinType.convertToMinCoin_main_eq whiteSpace ct mainScale minScale mainValid other]
  simp only [product, quotient, ok_bind]
  rw [rounds, ok_bind]
  exact Coin.newCoin_of_valid (validateDenom_eq_ok minValid) nonnegN

/-- Half a `uiris`, `0.0000005iris`, goes to the even neighbour: no `uiris`. -/
theorem convertToMinCoin_rounds_half_even_half_uiris :
    (Token.getCoinType ⟨"iris", 6, "uiris"⟩).convertToMinCoin (fun _ => false) ⟨"iris", ⟨5 * 10 ^ 11⟩⟩ =
      .ok ⟨"uiris", 0⟩ := by
  obtain ⟨n, converted, rounded⟩ := convertToMinCoin_rounds_half_even (fun _ => false)
    (Token.getCoinType ⟨"iris", 6, "uiris"⟩) rfl (by decide) (by decide) (by decide) (by decide) ⟨5 * 10 ^ 11⟩
    (by decide) (by rw [bitLen_le_iff]; decide)
  have six : (Token.getCoinType ⟨"iris", 6, "uiris"⟩).minUnit.scale.toNat = 6 := by decide
  have half : IsRoundHalfEven ((⟨5 * 10 ^ 11⟩ : Dec).toRat * 10 ^ 6) 0 :=
    isRoundHalfEven_of_half (by norm_num [Dec.toRat, Dec.precision]) ⟨0, rfl⟩
  rw [six] at rounded
  rw [rounded.unique half] at converted
  exact converted

/-- A coin of neither unit passes through both conversions unchanged: to
`NewDecFromInt` of its amount and back by `TruncateInt`, under its own denom,
whatever the denom and the sign of the amount, which neither conversion checks. -/
theorem convert_other_denom_round_trip (whiteSpace : Char → Bool) (ct : CoinType) (coin : Coin)
    (notUnit : ct.hasUnit whiteSpace coin.denom = false) (fits : bitLen coin.amount ≤ SdkInt.maxBitLen) :
    ct.convertToMainCoin whiteSpace coin = .ok ⟨coin.denom, ⟨coin.amount * 10 ^ Dec.precision⟩⟩ ∧
      ct.convertToMinCoin whiteSpace ⟨coin.denom, ⟨coin.amount * 10 ^ Dec.precision⟩⟩ = .ok coin := by
  constructor
  · rw [CoinType.convertToMainCoin, notUnit, Bool.not_false, if_pos rfl, Dec.newDecFromInt_eq]
    rfl
  · rw [CoinType.convertToMinCoin]
    dsimp only
    rw [notUnit, Bool.not_false, if_pos rfl, Dec.truncateInt_scaled coin.amount fits]
    rfl

-- minus five `atom` comes back from the `iris` coin type as it went in
example :
    (Token.getCoinType ⟨"iris", 6, "uiris"⟩).hasUnit (fun _ => false) "atom" = false ∧
      (Token.getCoinType ⟨"iris", 6, "uiris"⟩).convertToMinCoin (fun _ => false)
        ⟨"atom", ⟨-5 * 10 ^ Dec.precision⟩⟩ = .ok ⟨"atom", -5⟩ := by
  have notUnit : (Token.getCoinType ⟨"iris", 6, "uiris"⟩).hasUnit (fun _ => false) "atom" = false := by
    decide
  exact ⟨notUnit, (convert_other_denom_round_trip (fun _ => false) _ ⟨"atom", -5⟩ notUnit
    (by rw [bitLen_le_iff]; decide)).2⟩

/-! ## The default token manager -/

namespace DefaultTokenManager

/-- `DefaultTokenManager.ToMinCoin`: each `iris` coin renamed `uiris` and its
amount scaled by `10^6` (in the caller's slice), then `DecCoins.TruncateDecimal`,
of which the integer parts are returned. -/
def toMinCoin (coins : DecCoins) : Result Coins := do
  let coins ← coins.mapM fun coin =>
    if coin.denom = "iris" then do
      let amount ← Dec.mulInt coin.amount (← SdkInt.newIntWithDecimal 1 6)
      pure ⟨"uiris", amount⟩
    else pure coin
  let ucoins ← DecCoins.truncateDecimal coins
  pure ucoins.1

/-- One turn of the loop of `ToMainCoin`: a `uiris` coin is appended as `iris`,
scaled by `10^-6`; other coins are skipped. -/
def toMainCoinStep (decCoins : DecCoins) (coin : Coin) : Result DecCoins :=
  if coin.denom = "uiris" then do
    let amtount ← Dec.mul (← Dec.newDecFromInt coin.amount) (← Dec.newDecWithPrec 1 6)
    let decCoin ← DecCoin.newDecCoinFromDec "iris" amtount
    pure (decCoins ++ [decCoin])
  else pure decCoins

/-- `DefaultTokenManager.ToMainCoin`: the result is allocated by
`make(DecCoins, len(coins), 0)` before the loop. -/
def toMainCoin (coins : Coins) : Result DecCoins := do
  let decCoins ← makeSlice zeroDecCoin coins.length 0
  coins.foldlM toMainCoinStep decCoins

end DefaultTokenManager

/-- `ToMainCoin` returns only on no coins: for any other argument the length
of `make(DecCoins, len(coins), 0)` exceeds its capacity, and the allocation
panics before the loop. -/
theorem toMainCoin_panics_unless_empty :
    DefaultTokenManager.toMainCoin [] = .ok [] ∧
      ∀ coins : Coins, coins ≠ [] → Panicked (DefaultTokenManager.toMainCoin coins) := by
  refine ⟨rfl, fun coins nonempty => ?_⟩
  have positive : 0 < coins.length := List.length_pos_iff.mpr nonempty
  rw [DefaultTokenManager.toMainCoin, makeSlice, if_pos positive]
  exact panicked_bind ⟨_, rfl⟩

/-- A million `uiris`, one `iris`, is not converted: the allocation panics. -/
theorem toMainCoin_panics_unless_empty_uiris :
    Panicked (DefaultTokenManager.toMainCoin [⟨"uiris", 1000000⟩]) :=
  toMainCoin_panics_unless_empty.2 _ (List.cons_ne_nil _ _)

/-- One `iris` amount `d` within the bound of `Int` becomes `d * 10^6` `uiris`
truncated toward zero, and no coin at all below one `uiris`; `ConvertToMinCoin`
of the `iris` coin type rounds the same amount half to even. -/
theorem toMinCoin_truncates (d : Dec) (nonneg : 0 ≤ d.i) (fits : bitLen d.i ≤ SdkInt.maxBitLen) :
    DefaultTokenManager.toMinCoin [⟨"iris", d⟩] =
      .ok (Coins.removeZeroCoins [⟨"uiris", truncate (d.toRat * 10 ^ 6)⟩]) := by
  have factor : SdkInt.newIntWithDecimal 1 6 = .ok (10 ^ 6) := by
    have million := SdkInt.newIntWithDecimal_of_fits 1 6 (by rw [bitLen_le_iff]; decide)
    rw [one_mul] at million
    exact million
  have scaled : Dec.mulInt d (10 ^ 6) = .ok ⟨d.i * 10 ^ 6⟩ := by
    rw [Dec.mulInt]
    exact if_neg (not_lt.mpr (CoinType.bitLen_mul_pow_le fits (by decide)))
  -- the integer part in `uiris` is at most `d.i`, so it fits
  have partFits : bitLen (Dec.chopPrecisionAndTruncate (d.i * 10 ^ 6)) ≤ SdkInt.maxBitLen := by
    have scaledNonneg : 0 ≤ d.i * 10 ^ 6 := by positivity
    have below : (d.i * 10 ^ 6) / 10 ^ Dec.precision ≤ d.i := by
      apply Int.ediv_le_of_le_mul (by positivity)
      exact mul_le_mul_of_nonneg_left (pow_le_pow_right₀ (by norm_num) (by decide)) nonneg
    have partNonneg : 0 ≤ (d.i * 10 ^ 6) / 10 ^ Dec.precision := Int.ediv_nonneg scaledNonneg (by positivity)
    rw [Dec.chopPrecisionAndTruncate, Int.tdiv_eq_ediv_of_nonneg scaledNonneg]
    rw [bitLen_le_iff] at fits ⊢
    omega
  have truncated := truncateDecimal_of_accepted [⟨"uiris", ⟨d.i * 10 ^ 6⟩⟩] (List.pairwise_singleton _ _)
    fun coin member => by
      rw [List.mem_singleton.mp member]
      exact ⟨show validateDenom "uiris" = .ok () by decide, by positivity, partFits⟩
  have part : Dec.chopPrecisionAndTruncate (d.i * 10 ^ 6) = truncate (d.toRat * 10 ^ 6) := by
    rw [Dec.chopPrecisionAndTruncate_eq_truncate, ← CoinType.toRat_mul_pow]
    rfl
  rw [DefaultTokenManager.toMinCoin, List.mapM_cons, if_pos rfl, factor, ok_bind, scaled, ok_bind, pure_eq_ok,
    ok_bind, List.mapM_nil, pure_eq_ok, ok_bind, pure_eq_ok, ok_bind, truncated, ok_bind]
  simp only [List.map_cons, List.map_nil, DecCoin.truncatedPart, part]
  rfl

-- one and a half `uiris` sent as `iris` is one `uiris`, and half of one is none
example :
    DefaultTokenManager.toMinCoin [⟨"iris", ⟨15 * 10 ^ 11⟩⟩] = .ok [⟨"uiris", 1⟩] ∧
      DefaultTokenManager.toMinCoin [⟨"iris", ⟨5 * 10 ^ 11⟩⟩] = .ok [] := by
  have half : truncate ((⟨5 * 10 ^ 11⟩ : Dec).toRat * 10 ^ 6) = 0 := by
    rw [truncate_of_nonneg (by norm_num [Dec.toRat]), Int.floor_eq_iff]
    norm_num [Dec.toRat, Dec.precision]
  have oneAndHalf : truncate ((⟨15 * 10 ^ 11⟩ : Dec).toRat * 10 ^ 6) = 1 := by
    rw [truncate_of_nonneg (by norm_num [Dec.toRat]), Int.floor_eq_iff]
    norm_num [Dec.toRat, Dec.precision]
  refine ⟨?_, ?_⟩
  · rw [toMinCoin_truncates ⟨15 * 10 ^ 11⟩ (by decide) (by rw [bitLen_le_iff]; decide), oneAndHalf]
    rfl
  · rw [toMinCoin_truncates ⟨5 * 10 ^ 11⟩ (by decide) (by rw [bitLen_le_iff]; decide), half]
    rfl

end CoreSdk.Types
