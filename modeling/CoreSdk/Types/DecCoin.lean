import CoreSdk.Types.Coin
import CoreSdk.Types.Dec

/-!
# Decimal coins

`types/dec_coin.go` repeats the merge and the validity check of `Coins` over
`Dec` amounts; here they are the ones of `CoinOf`, applied to the operations of
`Dec`. `DecCoin.Add` differs from `Coin.Add` only in its panic message.

Both `Add`s break the contract their documentation states: the sum of two sets
that pass `IsValid` need not pass it, because `IsValid` lets the first coin have
upper-case letters and the merge can move that coin behind another one.
-/

namespace CoreSdk.Types

open Go

set_option autoImplicit false

/-- `DecCoin`. -/
abbrev DecCoin := CoinOf Dec

/-- `DecCoins`. -/
abbrev DecCoins := List DecCoin

namespace DecCoin

/-- `DecCoin.Add`. -/
def add (coin coinB : DecCoin) : Result DecCoin :=
  if coin.denom ≠ coinB.denom then
    panicWith ("coin denom different: " ++ coin.denom ++ " " ++ coinB.denom ++ "\n")
  else do
    let amount ← Dec.add coin.amount coinB.amount
    pure ⟨coin.denom, amount⟩

/-- What `DecCoin.Add` returns when it does not panic. -/
theorem add_eq_ok {coin coinB res : DecCoin} (added : add coin coinB = .ok res) :
    res.denom = coin.denom ∧ res.amount.i = coin.amount.i + coinB.amount.i := by
  unfold add at added
  split_ifs at added
  · exact absurd added (panicWith_ne_ok _ _)
  · obtain ⟨amount, sum, returned⟩ := bind_eq_ok.mp added
    rw [← Except.ok.inj returned]
    exact ⟨rfl, Dec.add_eq_ok sum⟩

end DecCoin

namespace DecCoins

/-- `removeZeroDecCoins`. -/
def removeZeroDecCoins (coins : DecCoins) : DecCoins := CoinOf.removeZero Dec.isZero coins

/-- `DecCoins.safeAdd`. -/
def safeAdd (coins coinsB : DecCoins) : Result DecCoins :=
  CoinOf.safeAdd Dec.isZero DecCoin.add coins coinsB

/-- `DecCoins.Add`, with the variadic `coinsB` as a slice. -/
def add (coins coinsB : DecCoins) : Result DecCoins := safeAdd coins coinsB

/-- `DecCoins.IsValid`. -/
def isValid (nonAscii : Char → Char) (coins : DecCoins) : Bool :=
  CoinOf.isValid Dec.isPositive nonAscii coins

/-- `Add` keeps `IsValid` when no denom of either set has an upper-case letter. -/
theorem add_isValid_of_lowerCase_dec (nonAscii : Char → Char) (coins coinsB sum : DecCoins)
    (valid : isValid nonAscii coins = true) (validB : isValid nonAscii coinsB = true)
    (lowerCase : ∀ c ∈ coins ++ coinsB, stringsToLower nonAscii c.denom = c.denom)
    (added : add coins coinsB = .ok sum) : isValid nonAscii sum = true := by
  rw [isValid, CoinOf.isValid_iff] at valid validB ⊢
  apply CoinOf.wellFormed_safeAdd Dec.isZero Dec.isPositive DecCoin.add nonAscii _ _ _
    valid validB lowerCase added
  · intro a b r sum
    exact (DecCoin.add_eq_ok sum).1
  · intro a b r sum positive positiveB
    simp only [Dec.isPositive, decide_eq_true_eq] at *
    rw [(DecCoin.add_eq_ok sum).2]
    omega
  · intro x positive
    simp only [Dec.isPositive, Dec.isZero, decide_eq_true_eq, decide_eq_false_iff_not] at *
    omega

-- `{1aaa} + {2bbb}`, two valid sets of lower-case denoms
example :
    add [⟨"aaa", ⟨1⟩⟩] [⟨"bbb", ⟨2⟩⟩] = .ok [⟨"aaa", ⟨1⟩⟩, ⟨"bbb", ⟨2⟩⟩] ∧
      isValid id [⟨"aaa", ⟨1⟩⟩, ⟨"bbb", ⟨2⟩⟩] = true := by
  have added : add [⟨"aaa", ⟨1⟩⟩] [⟨"bbb", ⟨2⟩⟩] = .ok [⟨"aaa", ⟨1⟩⟩, ⟨"bbb", ⟨2⟩⟩] := by
    rw [add, safeAdd, CoinOf.safeAdd, CoinOf.safeAddLoop_lt _ _ _ _ _ _ _ (by decide),
      CoinOf.safeAddLoop_nil_cons]
    decide
  exact ⟨added, add_isValid_of_lowerCase_dec id _ _ _ (by decide) (by decide) (by decide) added⟩

end DecCoins

/-- Two valid one-coin sets whose sum is not valid, for `Coins` and for
`DecCoins` alike: the merge puts `Aaa` first, and `Bbb`, valid as the first coin
of its own set, is then a later coin with an upper-case letter. -/
theorem add_valid_sets_not_isValid (nonAscii : Char → Char) :
    (Coins.isValid nonAscii [⟨"Aaa", 1⟩] = true ∧ Coins.isValid nonAscii [⟨"Bbb", 1⟩] = true ∧
      Coins.add [⟨"Aaa", 1⟩] [⟨"Bbb", 1⟩] = .ok [⟨"Aaa", 1⟩, ⟨"Bbb", 1⟩] ∧
      Coins.isValid nonAscii [⟨"Aaa", 1⟩, ⟨"Bbb", 1⟩] = false) ∧
    (DecCoins.isValid nonAscii [⟨"Aaa", ⟨1⟩⟩] = true ∧
      DecCoins.isValid nonAscii [⟨"Bbb", ⟨1⟩⟩] = true ∧
      DecCoins.add [⟨"Aaa", ⟨1⟩⟩] [⟨"Bbb", ⟨1⟩⟩] = .ok [⟨"Aaa", ⟨1⟩⟩, ⟨"Bbb", ⟨1⟩⟩] ∧
      DecCoins.isValid nonAscii [⟨"Aaa", ⟨1⟩⟩, ⟨"Bbb", ⟨1⟩⟩] = false) := by
  have upper : stringsToLower nonAscii "Bbb" ≠ "Bbb" := by
    rw [stringsToLower_of_ascii nonAscii "Bbb" (by simp)]
    decide
  have ordered : "Aaa" < "Bbb" := by decide
  -- a one-coin set is checked by `ValidateDenom`, which admits upper case
  have single : ∀ denom, matchesDenom denom = true →
      CoinOf.isValid SdkInt.isPositive nonAscii [⟨denom, 1⟩] = true ∧
        CoinOf.isValid Dec.isPositive nonAscii [⟨denom, ⟨1⟩⟩] = true := by
    intro denom accepted
    simp [CoinOf.isValid, CoinOf.isValidFirst, validateDenom, accepted, Except.toBool, SdkInt.isPositive,
      Dec.isPositive]
  have aaa := single "Aaa" (by decide)
  have bbb := single "Bbb" (by decide)
  refine ⟨⟨aaa.1, bbb.1, ?_, ?_⟩, ⟨aaa.2, bbb.2, ?_, ?_⟩⟩
  · rw [Coins.add, Coins.safeAdd, CoinOf.safeAdd, CoinOf.safeAddLoop_lt _ _ _ ⟨"Aaa", 1⟩ ⟨"Bbb", 1⟩ _ _ ordered,
      CoinOf.safeAddLoop_nil_cons]
    decide
  · exact CoinOf.isValid_of_upper_second _ _ _ _ [] upper
  · rw [DecCoins.add, DecCoins.safeAdd, CoinOf.safeAdd,
      CoinOf.safeAddLoop_lt _ _ _ (⟨"Aaa", ⟨1⟩⟩ : DecCoin) ⟨"Bbb", ⟨1⟩⟩ _ _ ordered,
      CoinOf.safeAddLoop_nil_cons]
    decide
  · exact CoinOf.isValid_of_upper_second _ _ _ _ [] upper

end CoreSdk.Types
