import CoreSdk.Types.AmountOf

/-!
# Comparing coin sets

`Coins.DenomsSubsetOf`, `IsAllGT`, `IsAllGTE`, `IsAllLT`, `IsAllLTE`, `IsAnyGT`
and `IsAnyGTE` (`types/coin.go`) compare two sets denom by denom of one of
them, each amount read by `AmountOf`, which validates the denom first.

On valid sets whose compared denoms pass `ValidateDenom` they compare the
amounts the sets hold: `IsAllGTE` is the pointwise order (`isAllGTE_eq_ok`) and
answers the opposite of the flag of `SafeSub` (`isAllGTE_agrees_with_safeSub`);
`IsAllGT` asks for more at every denom of the second set only, and for a first
set that is not empty (`isAllGT_eq_ok`); `IsAnyGT` and `IsAnyGTE` ask for more
(or as much) at some denom that both sets hold (`isAnyWith_spec`), the first
set holding more, as the examples of the source have it, where the prose of
its comments says the second.

`IsValid` runs `ValidateDenom` on the first denom only. A valid set may hold a
later denom that `AmountOf` refuses, and `IsAllGTE` then panics when its loop
reaches that denom (`isAllGTE_panics_at_refused_denom`).
-/

namespace CoreSdk.Types

open Go

set_option autoImplicit false

namespace Coins

/-- `Coins.IsAllGT`. -/
def isAllGT (coins coinsB : Coins) : Result Bool :=
  if coins.length = 0 then pure false
  else if coinsB.length = 0 then pure true
  else do
    let subset ← denomsSubsetOf coinsB coins
    if !subset then pure false
    else coinsB.allM fun coinB => do
      let amountA ← amountOf coins coinB.denom
      pure (decide (amountA > coinB.amount))

/-- `Coins.IsAllGTE`. -/
def isAllGTE (coins coinsB : Coins) : Result Bool :=
  if coinsB.length = 0 then pure true
  else if coins.length = 0 then pure false
  else coinsB.allM fun coinB => do
    let amount ← amountOf coins coinB.denom
    pure !(decide (coinB.amount > amount))

/-- `Coins.IsAllLT`. -/
def isAllLT (coins coinsB : Coins) : Result Bool := isAllGT coinsB coins

/-- `Coins.IsAllLTE`. -/
def isAllLTE (coins coinsB : Coins) : Result Bool := isAllGTE coinsB coins

/-- The loop of `IsAnyGT` and `IsAnyGTE`: a coin whose amount `exceeds` what
`coinsB` holds of its denom, when that is not zero. -/
def isAnyWith (exceeds : Int → Int → Bool) (coins coinsB : Coins) : Result Bool :=
  if coinsB.length = 0 then pure false
  else coins.anyM fun coin => do
    let amt ← amountOf coinsB coin.denom
    pure (exceeds coin.amount amt && !SdkInt.isZero amt)

/-- `Coins.IsAnyGT`. -/
def isAnyGT (coins coinsB : Coins) : Result Bool := isAnyWith (fun a b => decide (a > b)) coins coinsB

/-- `Coins.IsAnyGTE`. -/
def isAnyGTE (coins coinsB : Coins) : Result Bool := isAnyWith (fun a b => decide (a ≥ b)) coins coinsB

end Coins

namespace CoinOf

variable {A : Type} (val : A → Int)

theorem val_lookup (zero : A) (zeroVal : val zero = 0) {coins : List (CoinOf A)}
    (ascending : coins.Pairwise (·.denom < ·.denom)) (denom : String) :
    val (lookup zero coins denom) = amounts val coins denom := by
  by_cases present : ∃ c ∈ coins, c.denom = denom
  · obtain ⟨c, member, rfl⟩ := present
    rw [lookup_of_mem zero ascending member, amounts_of_mem val ascending member]
  · have absent : ∀ c ∈ coins, c.denom ≠ denom := fun c member same => present ⟨c, member, same⟩
    rw [lookup_of_absent zero denom absent, amounts_of_absent val absent, zeroVal]

theorem amounts_nonneg {coins : List (CoinOf A)} (positive : ∀ c ∈ coins, 0 < val c.amount) (denom : String) :
    0 ≤ amounts val coins denom := by
  apply List.sum_nonneg
  intro x mapped
  obtain ⟨c, member, rfl⟩ := List.mem_map.mp mapped
  split_ifs
  · exact (positive c member).le
  · exact le_rfl

/-- A set sorted strictly by denom holds a denom exactly when one of its coins has it. -/
theorem amounts_ne_zero_iff {coins : List (CoinOf A)} (ascending : coins.Pairwise (·.denom < ·.denom))
    (positive : ∀ c ∈ coins, 0 < val c.amount) (denom : String) :
    amounts val coins denom ≠ 0 ↔ denom ∈ coins.map (·.denom) := by
  rw [List.mem_map]
  constructor
  · intro held
    by_contra absent
    exact held (amounts_of_absent val fun c member same => absent ⟨c, member, same⟩)
  · rintro ⟨c, member, rfl⟩
    rw [amounts_of_mem val ascending member]
    exact (positive c member).ne'

/-- Below another set at each of its coins is below it at every denom. -/
theorem forall_mem_le_iff {coins coinsB : List (CoinOf A)} (ascendingB : coinsB.Pairwise (·.denom < ·.denom))
    (nonneg : ∀ denom, 0 ≤ amounts val coins denom) :
    (∀ c ∈ coinsB, val c.amount ≤ amounts val coins c.denom) ↔
      ∀ denom, amounts val coinsB denom ≤ amounts val coins denom := by
  constructor
  · intro each denom
    by_cases present : ∃ c ∈ coinsB, c.denom = denom
    · obtain ⟨c, member, rfl⟩ := present
      rw [amounts_of_mem val ascendingB member]
      exact each c member
    · rw [amounts_of_absent val fun c member same => present ⟨c, member, same⟩]
      exact nonneg denom
  · intro below c member
    have atDenom := below c.denom
    rwa [amounts_of_mem val ascendingB member] at atDenom

end CoinOf

namespace Coins

variable {coins coinsB : Coins}

theorem amountOf_eq_amounts (ascending : coins.Pairwise (·.denom < ·.denom)) {denom : String}
    (accepted : validateDenom denom = .ok ()) : amountOf coins denom = .ok (CoinOf.amounts id coins denom) := by
  rw [amountOf, CoinOf.amountOf_eq_lookup 0 accepted coins ascending, ← CoinOf.val_lookup id 0 rfl ascending]
  rfl

theorem amountOf_of_refused (coins : Coins) {denom err : String} (refused : validateDenom denom = .error err) :
    amountOf coins denom = panicWith err := by
  unfold amountOf CoinOf.amountOf
  rw [mustValidateDenom, refused]
  rfl

theorem positive_of_isValid (nonAscii : Char → Char) (valid : isValid nonAscii coins = true) :
    ∀ c ∈ coins, 0 < c.amount := by
  rw [isValid, CoinOf.isValid_iff] at valid
  intro c member
  simpa [SdkInt.isPositive] using valid.positive c member

theorem ascending_of_isValid (nonAscii : Char → Char) (valid : isValid nonAscii coins = true) :
    coins.Pairwise (·.denom < ·.denom) := by
  rw [isValid, CoinOf.isValid_iff] at valid
  exact valid.ascending

/-- `DenomsSubsetOf` of a set sorted strictly by denom, whose denoms pass
`ValidateDenom`, in a valid set: whether each of its denoms is one of the other
set's. The length test in front of the loop decides nothing more. -/
theorem denomsSubsetOf_eq_ok (nonAscii : Char → Char) (ascending : coins.Pairwise (·.denom < ·.denom))
    (validB : isValid nonAscii coinsB = true) (accepted : ∀ c ∈ coins, validateDenom c.denom = .ok ()) :
    denomsSubsetOf coins coinsB = .ok (coins.all fun c => decide (c.denom ∈ coinsB.map (·.denom))) := by
  have held : ∀ c ∈ coins, (!SdkInt.isZero (CoinOf.amounts id coinsB c.denom)) =
      decide (c.denom ∈ coinsB.map (·.denom)) := by
    intro c _
    rw [Bool.eq_iff_iff, decide_eq_true_iff, ← CoinOf.amounts_ne_zero_iff id
      (ascending_of_isValid nonAscii validB) (positive_of_isValid nonAscii validB)]
    simp [SdkInt.isZero]
  have loop : coins.allM (fun coin => do
        let amount ← amountOf coinsB coin.denom
        pure !SdkInt.isZero amount) =
      .ok (coins.all fun c => decide (c.denom ∈ coinsB.map (·.denom))) := by
    apply allM_eq_ok_all
    intro c member
    rw [amountOf_eq_amounts (ascending_of_isValid nonAscii validB) (accepted c member), ok_bind,
      held c member]
    rfl
  rw [denomsSubsetOf]
  split_ifs with longer
  · -- distinct denoms all among the other set's are no more than it has
    have missing : (coins.all fun c => decide (c.denom ∈ coinsB.map (·.denom))) = false := by
      by_contra allHeld
      have within : coins.map (·.denom) ⊆ coinsB.map (·.denom) := by
        intro denom member
        obtain ⟨c, inCoins, rfl⟩ := List.mem_map.mp member
        have each := List.all_eq_true.mp (Bool.not_eq_false _ ▸ allHeld) c inCoins
        exact of_decide_eq_true each
      have distinct : (coins.map (·.denom)).Nodup :=
        List.nodup_iff_pairwise_ne.mpr (List.pairwise_map.mpr (ascending.imp ne_of_lt))
      have fewer := (distinct.subperm within).length_le
      rw [List.length_map, List.length_map] at fewer
      omega
    rw [missing]
    rfl
  · exact loop

/-- `IsAllGTE` of valid sets, when each denom of the second passes
`ValidateDenom`: whether the first holds at least as much of every denom. -/
theorem isAllGTE_eq_ok (nonAscii : Char → Char) (valid : isValid nonAscii coins = true)
    (validB : isValid nonAscii coinsB = true) (accepted : ∀ c ∈ coinsB, validateDenom c.denom = .ok ()) :
    ∃ covers, isAllGTE coins coinsB = .ok covers ∧
      (covers = true ↔ ∀ denom, CoinOf.amounts id coinsB denom ≤ CoinOf.amounts id coins denom) := by
  have nonneg := CoinOf.amounts_nonneg id (positive_of_isValid nonAscii valid)
  have ascendingB := ascending_of_isValid nonAscii validB
  unfold isAllGTE
  split_ifs with emptyB empty
  · refine ⟨true, rfl, iff_of_true rfl fun denom => ?_⟩
    rw [List.length_eq_zero_iff.mp emptyB, CoinOf.amounts_nil]
    exact nonneg denom
  · -- the first set holds none of the positive amount of the second's first coin
    obtain ⟨c, member⟩ := List.exists_mem_of_length_pos (Nat.pos_of_ne_zero emptyB)
    refine ⟨false, rfl, iff_of_false Bool.false_ne_true fun below => ?_⟩
    have atDenom := below c.denom
    rw [CoinOf.amounts_of_mem id ascendingB member, List.length_eq_zero_iff.mp empty,
      CoinOf.amounts_nil] at atDenom
    exact absurd atDenom (not_le.mpr (positive_of_isValid nonAscii validB c member))
  · refine ⟨_, allM_eq_ok_all _ (fun coinB => !decide (coinB.amount > CoinOf.amounts id coins coinB.denom))
      coinsB fun coinB member => ?_, ?_⟩
    · rw [amountOf_eq_amounts (ascending_of_isValid nonAscii valid) (accepted coinB member), ok_bind]
      rfl
    · rw [List.all_eq_true, ← CoinOf.forall_mem_le_iff id ascendingB nonneg]
      simp

/-- `IsAllGTE` of valid sets, when each denom of the second passes
`ValidateDenom`, returns whether the first holds at least as much of every
denom, and that is the opposite of the flag `SafeSub` returns, whenever it
returns. -/
theorem isAllGTE_agrees_with_safeSub (nonAscii : Char → Char) (valid : isValid nonAscii coins = true)
    (validB : isValid nonAscii coinsB = true) (accepted : ∀ c ∈ coinsB, validateDenom c.denom = .ok ()) :
    ∃ covers, isAllGTE coins coinsB = .ok covers ∧
      (covers = true ↔ ∀ denom, CoinOf.amounts id coinsB denom ≤ CoinOf.amounts id coins denom) ∧
      ∀ diff hasNeg, safeSub coins coinsB = .ok (diff, hasNeg) → covers = !hasNeg := by
  obtain ⟨covers, compared, coversIff⟩ := isAllGTE_eq_ok nonAscii valid validB accepted
  refine ⟨covers, compared, coversIff, fun diff hasNeg subtracted => ?_⟩
  have flag := (CoinOf.safeSub_spec SdkInt.isZero SdkInt.neg SdkInt.isNegative Coin.add id
    (fun _ => SdkInt.isZero_eq_true) (fun _ => rfl) (fun x => by simp [SdkInt.isNegative]) Coin.add_spec
    (ascending_of_isValid nonAscii valid) (ascending_of_isValid nonAscii validB) subtracted).flag
  -- both ask whether the second set holds more of some denom
  have opposite : covers = true ↔ ¬hasNeg = true := by
    rw [coversIff, flag, not_exists]
    exact forall_congr' fun denom => not_lt.symm
  cases covers <;> cases hasNeg <;> simp at opposite ⊢

/-- `{1aaa}.IsAllGTE({1aaa, 1bbb})`, where `SafeSub` flags the `bbb` it lacks. -/
theorem isAllGTE_agrees_with_safeSub_bbb :
    isValid id [⟨"aaa", 1⟩] = true ∧ isValid id [⟨"aaa", 1⟩, ⟨"bbb", 1⟩] = true ∧
      (∀ c ∈ ([⟨"aaa", 1⟩, ⟨"bbb", 1⟩] : Coins), validateDenom c.denom = .ok ()) ∧
      ∃ covers, isAllGTE [⟨"aaa", 1⟩] [⟨"aaa", 1⟩, ⟨"bbb", 1⟩] = .ok covers ∧
        (covers = true ↔ ∀ denom, CoinOf.amounts id [⟨"aaa", 1⟩, ⟨"bbb", 1⟩] denom ≤
          CoinOf.amounts id [⟨"aaa", 1⟩] denom) ∧
        ∀ diff hasNeg, safeSub [⟨"aaa", 1⟩] [⟨"aaa", 1⟩, ⟨"bbb", 1⟩] = .ok (diff, hasNeg) →
          covers = !hasNeg := by
  have accepted : ∀ c ∈ ([⟨"aaa", 1⟩, ⟨"bbb", 1⟩] : Coins), validateDenom c.denom = .ok () := by
    intro c member
    simp only [List.mem_cons, List.not_mem_nil, or_false] at member
    rcases member with rfl | rfl <;> decide
  exact ⟨by decide, by decide, accepted, isAllGTE_agrees_with_safeSub id (by decide) (by decide) accepted⟩

/-- `IsAllGTE` panics at the first coin of the second set whose denom
`ValidateDenom` refuses, when the first set is not empty and covers every coin
before it. -/
theorem isAllGTE_panics_at_refused_denom (ascending : coins.Pairwise (·.denom < ·.denom)) (held : coins ≠ [])
    {front back : Coins} {coin : Coin} {err : String} (split : coinsB = front ++ coin :: back)
    (covered : ∀ c ∈ front, validateDenom c.denom = .ok () ∧ c.amount ≤ CoinOf.amounts id coins c.denom)
    (refused : validateDenom coin.denom = .error err) : isAllGTE coins coinsB = panicWith err := by
  have nonemptyB : coinsB.length ≠ 0 := by
    rw [split]
    simp
  rw [isAllGTE, if_neg nonemptyB, if_neg (mt List.length_eq_zero_iff.mp held), split]
  apply allM_append_cons_of_error
  · intro c member
    obtain ⟨accepted, below⟩ := covered c member
    rw [amountOf_eq_amounts ascending accepted, ok_bind]
    simp [below]
  · rw [amountOf_of_refused coins refused]
    rfl

-- `{1aaa, 1bb}` is valid, `AmountOf` refuses `bb`, and `{2aaa}.IsAllGTE({1aaa, 1bb})` panics
example :
    isValid id [⟨"aaa", 2⟩] = true ∧ isValid id [⟨"aaa", 1⟩, ⟨"bb", 1⟩] = true ∧
      isAllGTE [⟨"aaa", 2⟩] [⟨"aaa", 1⟩, ⟨"bb", 1⟩] = panicWith "invalid denom: bb" := by
  have covered : ∀ c ∈ ([⟨"aaa", 1⟩] : Coins),
      validateDenom c.denom = .ok () ∧ c.amount ≤ CoinOf.amounts id [⟨"aaa", 2⟩] c.denom := by
    intro c member
    rw [List.mem_singleton.mp member]
    exact ⟨by decide, by decide⟩
  exact ⟨by decide, by decide, isAllGTE_panics_at_refused_denom (by decide) (List.cons_ne_nil _ _)
    (show ([⟨"aaa", 1⟩, ⟨"bb", 1⟩] : Coins) = [⟨"aaa", 1⟩] ++ ⟨"bb", 1⟩ :: [] from rfl) covered (by decide)⟩

/-- `IsAllGT` of valid sets, when each denom of the second passes
`ValidateDenom`: the first set is not empty and holds more than the second at
each of the second's denoms. -/
theorem isAllGT_eq_ok (nonAscii : Char → Char) (valid : isValid nonAscii coins = true)
    (validB : isValid nonAscii coinsB = true) (accepted : ∀ c ∈ coinsB, validateDenom c.denom = .ok ()) :
    ∃ exceeds, isAllGT coins coinsB = .ok exceeds ∧
      (exceeds = true ↔ coins ≠ [] ∧ ∀ c ∈ coinsB, c.amount < CoinOf.amounts id coins c.denom) := by
  have ascending := ascending_of_isValid nonAscii valid
  unfold isAllGT
  split_ifs with empty emptyB
  · exact ⟨false, rfl, iff_of_false Bool.false_ne_true fun exceeds => exceeds.1 (List.length_eq_zero_iff.mp empty)⟩
  · refine ⟨true, rfl, iff_of_true rfl ⟨mt List.length_eq_zero_iff.mpr empty, ?_⟩⟩
    rw [List.length_eq_zero_iff.mp emptyB]
    exact fun c member => absurd member List.not_mem_nil
  rw [denomsSubsetOf_eq_ok nonAscii (ascending_of_isValid nonAscii validB) valid accepted, ok_bind]
  cases subset : coinsB.all fun c => decide (c.denom ∈ coins.map (·.denom)) with
  | false =>
      -- the first set holds nothing of a denom it lacks, below the second's positive amount
      refine ⟨false, rfl, iff_of_false Bool.false_ne_true fun exceeds => ?_⟩
      obtain ⟨c, member, lacking⟩ := List.all_eq_false.mp subset
      have none : CoinOf.amounts id coins c.denom = 0 := by
        by_contra present
        exact lacking (decide_eq_true
          ((CoinOf.amounts_ne_zero_iff id ascending (positive_of_isValid nonAscii valid) c.denom).mp present))
      have above := exceeds.2 c member
      rw [none] at above
      exact absurd above (not_lt.mpr (positive_of_isValid nonAscii validB c member).le)
  | true =>
      refine ⟨_, allM_eq_ok_all _ (fun coinB => decide (CoinOf.amounts id coins coinB.denom > coinB.amount))
        coinsB fun coinB member => ?_, ?_⟩
      · rw [amountOf_eq_amounts ascending (accepted coinB member), ok_bind]
        rfl
      · rw [List.all_eq_true, and_iff_right (mt List.length_eq_zero_iff.mpr empty)]
        simp

/-- The loop of `IsAnyGT` and `IsAnyGTE`, when each denom of the first set
passes `ValidateDenom`, reads what the second holds of it. -/
theorem isAnyWith_eq_ok (exceeds : Int → Int → Bool) (ascendingB : coinsB.Pairwise (·.denom < ·.denom))
    (accepted : ∀ c ∈ coins, validateDenom c.denom = .ok ()) :
    isAnyWith exceeds coins coinsB = .ok (coins.any fun c =>
      exceeds c.amount (CoinOf.amounts id coinsB c.denom) && !SdkInt.isZero (CoinOf.amounts id coinsB c.denom)) := by
  unfold isAnyWith
  split_ifs with emptyB
  · -- an empty second set holds zero of every denom, which the loop skips
    rw [List.length_eq_zero_iff.mp emptyB]
    simp [SdkInt.isZero]
  · apply anyM_eq_ok_any
    intro c member
    rw [amountOf_eq_amounts ascendingB (accepted c member), ok_bind]
    rfl

/-- `IsAnyGT` and `IsAnyGTE` of a valid second set, when each denom of the
first passes `ValidateDenom`: some denom of the first set is held by the
second, and the first set's amount `exceeds` what the second holds of it. -/
theorem isAnyWith_spec (exceeds : Int → Int → Bool) (nonAscii : Char → Char)
    (validB : isValid nonAscii coinsB = true) (accepted : ∀ c ∈ coins, validateDenom c.denom = .ok ()) :
    ∃ found, isAnyWith exceeds coins coinsB = .ok found ∧ (found = true ↔
      ∃ c ∈ coins, c.denom ∈ coinsB.map (·.denom) ∧ exceeds c.amount (CoinOf.amounts id coinsB c.denom) = true) := by
  refine ⟨_, isAnyWith_eq_ok exceeds (ascending_of_isValid nonAscii validB) accepted, ?_⟩
  rw [List.any_eq_true]
  apply exists_congr
  intro c
  apply and_congr_right
  intro _
  rw [← CoinOf.amounts_ne_zero_iff id (ascending_of_isValid nonAscii validB)
    (positive_of_isValid nonAscii validB)]
  simp [SdkInt.isZero, and_comm]

end Coins

end CoreSdk.Types
