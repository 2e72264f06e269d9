import Mathlib
import CoreSdk.Types.DecCoin

/-!
# Coin sets as amounts per denom

A coin set stands for the function from denoms to amounts that `amounts`
computes: the sum of the amounts of its coins of each denom, 0 for a denom it
does not hold. On sets sorted strictly by denom, the merge of `safeAdd` is
pointwise addition of these functions, drops the coins that come out zero, and
keeps the order; it panics only where an `Add` of two amounts of one denom
overflows.

`SafeSub` (`types/coin.go`, `types/dec_coin.go`) merges with the negated second
set and flags a negative amount. For `Coins` every amount has at most 255 bits,
so no difference overflows; a `Dec` has no such bound, and the difference of two
valid decimal sets can overflow the 315 bits of `Dec.Add`.
-/

namespace CoreSdk.Types

open Go Go.Big

set_option autoImplicit false

namespace CoinOf

variable {A : Type}

/-! ## The amounts a set holds -/

section Amounts

variable (val : A → Int)

/-- The amount of `denom` in a coin set, `val` reading each coin's amount. -/
def amounts (coins : List (CoinOf A)) (denom : String) : Int :=
  (coins.map fun c => if c.denom = denom then val c.amount else 0).sum

@[simp] theorem amounts_nil (denom : String) : amounts val [] denom = 0 := rfl

@[simp] theorem amounts_cons (coin : CoinOf A) (coins : List (CoinOf A)) (denom : String) :
    amounts val (coin :: coins) denom =
      (if coin.denom = denom then val coin.amount else 0) + amounts val coins denom := by
  simp [amounts]

@[simp] theorem amounts_append (coins more : List (CoinOf A)) (denom : String) :
    amounts val (coins ++ more) denom = amounts val coins denom + amounts val more denom := by
  simp [amounts]

/-- The amount a concatenation of sets holds is the sum of what each holds. -/
@[simp] theorem amounts_flatMap {E : Type} (entries : List E) (coinsOf : E → List (CoinOf A))
    (denom : String) :
    amounts val (entries.flatMap coinsOf) denom = (entries.map fun e => amounts val (coinsOf e) denom).sum := by
  induction entries with
  | nil => rfl
  | cons entry rest induction => simp [induction]

/-- Removing zero coins changes no amount. -/
theorem amounts_removeZero (isZero : A → Bool) (zero : ∀ x, isZero x = true → val x = 0)
    (coins : List (CoinOf A)) (denom : String) :
    amounts val (removeZero isZero coins) denom = amounts val coins denom := by
  induction coins with
  | nil => rfl
  | cons coin rest induction =>
      by_cases isZeroCoin : isZero coin.amount = true
      · rw [removeZero, List.filter_cons_of_neg (by simp [isZeroCoin]), ← removeZero, induction,
          amounts_cons, zero _ isZeroCoin]
        simp
      · rw [removeZero, List.filter_cons_of_pos (by simpa using isZeroCoin), ← removeZero,
          amounts_cons, amounts_cons, induction]

/-- The coin the merge may append adds its amount, or nothing when it is zero. -/
theorem amounts_appendIf (isZero : A → Bool) (zero : ∀ x, isZero x = true → val x = 0)
    (sum : List (CoinOf A)) (coin : CoinOf A) (denom : String) :
    amounts val (if isZero coin.amount then sum else sum ++ [coin]) denom =
      amounts val sum denom + amounts val [coin] denom := by
  split_ifs with isZeroCoin
  · simp [zero _ isZeroCoin]
  · rw [amounts_append]

/-- A denom no coin has holds nothing. -/
theorem amounts_of_absent {coins : List (CoinOf A)} {denom : String}
    (absent : ∀ c ∈ coins, c.denom ≠ denom) : amounts val coins denom = 0 := by
  rw [amounts, List.sum_eq_zero]
  intro x mapped
  obtain ⟨c, inCoins, rfl⟩ := List.mem_map.mp mapped
  rw [if_neg (absent c inCoins)]

/-- In a set sorted strictly by denom, a coin's denom holds exactly its amount. -/
theorem amounts_of_mem {coins : List (CoinOf A)} (ascending : coins.Pairwise (·.denom < ·.denom))
    {coin : CoinOf A} (member : coin ∈ coins) : amounts val coins coin.denom = val coin.amount := by
  induction coins with
  | nil => simp at member
  | cons first rest induction =>
      obtain ⟨above, restAscending⟩ := List.pairwise_cons.mp ascending
      rcases List.mem_cons.mp member with rfl | inRest
      · -- no later coin has the first coin's denom
        have absent : amounts val rest coin.denom = 0 :=
          amounts_of_absent val fun c inRest => ne_of_gt (above c inRest)
        simp [absent]
      · rw [amounts_cons, induction restAscending inRest, if_neg (ne_of_lt (above coin inRest))]
        simp

/-- Two sets sorted strictly by denom and free of zero coins that hold the same
amount of every denom are the same list: `amounts` determines such a set. -/
theorem eq_of_amounts_eq (inj : Function.Injective val) :
    ∀ {coins coinsB : List (CoinOf A)}, coins.Pairwise (·.denom < ·.denom) →
      coinsB.Pairwise (·.denom < ·.denom) → (∀ c ∈ coins, val c.amount ≠ 0) →
      (∀ c ∈ coinsB, val c.amount ≠ 0) → (∀ denom, amounts val coins denom = amounts val coinsB denom) →
      coins = coinsB
  | [], [], _, _, _, _, _ => rfl
  | [], coinB :: _, _, ascendingB, _, nonzeroB, same => by
      have held := amounts_of_mem val ascendingB List.mem_cons_self
      exact absurd (held.symm.trans (same coinB.denom).symm) (nonzeroB coinB List.mem_cons_self)
  | coin :: _, [], ascending, _, nonzero, _, same => by
      have held := amounts_of_mem val ascending List.mem_cons_self
      exact absurd (held.symm.trans (same coin.denom)) (nonzero coin List.mem_cons_self)
  | coin :: rest, coinB :: restB, ascending, ascendingB, nonzero, nonzeroB, same => by
      obtain ⟨above, restAscending⟩ := List.pairwise_cons.mp ascending
      obtain ⟨aboveB, restAscendingB⟩ := List.pairwise_cons.mp ascendingB
      have held := amounts_of_mem val ascending List.mem_cons_self
      have heldB := amounts_of_mem val ascendingB List.mem_cons_self
      -- the smaller first denom is held by one set only
      rcases lt_trichotomy coin.denom coinB.denom with lt | sameDenom | gt
      · have absent : amounts val (coinB :: restB) coin.denom = 0 := by
          refine amounts_of_absent val fun c member => ?_
          rcases List.mem_cons.mp member with rfl | inRest
          · exact ne_of_gt lt
          · exact ne_of_gt (lt_trans lt (aboveB c inRest))
        exact absurd (held.symm.trans ((same coin.denom).trans absent)) (nonzero coin List.mem_cons_self)
      · have sameAmount : coin.amount = coinB.amount := by
          apply inj
          rw [← held, same, sameDenom, heldB]
        have heads : coin = coinB := by
          cases coin
          cases coinB
          simp_all
        subst heads
        have tails : rest = restB := by
          refine eq_of_amounts_eq inj restAscending restAscendingB
            (fun c inRest => nonzero c (List.mem_cons_of_mem _ inRest))
            (fun c inRest => nonzeroB c (List.mem_cons_of_mem _ inRest)) fun denom => ?_
          have cons := same denom
          rw [amounts_cons, amounts_cons] at cons
          omega
        rw [tails]
      · have absent : amounts val (coin :: rest) coinB.denom = 0 := by
          refine amounts_of_absent val fun c member => ?_
          rcases List.mem_cons.mp member with rfl | inRest
          · exact ne_of_gt gt
          · exact ne_of_gt (lt_trans gt (above c inRest))
        exact absurd (heldB.symm.trans ((same coinB.denom).symm.trans absent))
          (nonzeroB coinB List.mem_cons_self)

end Amounts

/-! ## The merge adds denom by denom -/

/-- What the sum of two coin sets is: sorted strictly by denom, free of zero
coins, and holding of each denom what the two sets hold together. -/
structure IsPointwiseSum (val : A → Int) (isZero : A → Bool) (coinsA coinsB sum : List (CoinOf A)) :
    Prop where
  ascending : sum.Pairwise (·.denom < ·.denom)
  nonzero : ∀ c ∈ sum, isZero c.amount = false
  amounts_eq : ∀ denom, amounts val sum denom = amounts val coinsA denom + amounts val coinsB denom

/-- A set is its own sum with nothing. -/
theorem IsPointwiseSum.nil {val : A → Int} {isZero : A → Bool} {coins : List (CoinOf A)}
    (ascending : coins.Pairwise (·.denom < ·.denom)) (nonzero : ∀ c ∈ coins, isZero c.amount = false) :
    IsPointwiseSum val isZero coins [] coins :=
  ⟨ascending, nonzero, fun denom => by simp⟩

/-- Adding two sets one after the other adds their concatenation. -/
theorem IsPointwiseSum.append {val : A → Int} {isZero : A → Bool} {coinsA coinsB coinsC middle sum : List (CoinOf A)}
    (first : IsPointwiseSum val isZero coinsA coinsB middle)
    (second : IsPointwiseSum val isZero middle coinsC sum) :
    IsPointwiseSum val isZero coinsA (coinsB ++ coinsC) sum :=
  ⟨second.ascending, second.nonzero, fun denom => by
    rw [second.amounts_eq, first.amounts_eq, amounts_append]
    omega⟩

section Merge

variable (val : A → Int) (isZero : A → Bool) (addCoins : CoinOf A → CoinOf A → Result (CoinOf A))

/-- Each step of the merge moves the amounts it reads into the sum: what the
sum, the rest of one set and the rest of the other hold together is what the
result holds. -/
theorem safeAddLoop_amounts (zero : ∀ x, isZero x = true → val x = 0)
    (addSpec : ∀ a b r, addCoins a b = .ok r → r.denom = a.denom ∧ val r.amount = val a.amount + val b.amount)
    {sum coinsA coinsB res : List (CoinOf A)}
    (run : safeAddLoop isZero addCoins sum coinsA coinsB = .ok res) (denom : String) :
    amounts val res denom = amounts val sum denom + amounts val coinsA denom + amounts val coinsB denom := by
  fun_induction safeAddLoop isZero addCoins sum coinsA coinsB with
  | case1 sum => simp [← Except.ok.inj run]
  | case2 sum coinB restB =>
      rw [← Except.ok.inj run, amounts_append, amounts_removeZero val isZero zero]
      simp
  | case3 sum coinA restA =>
      rw [← Except.ok.inj run, amounts_append, amounts_removeZero val isZero zero]
      simp
  | case4 sum coinA restA coinB restB lt induction =>
      simp only [dite_eq_ite] at induction
      rw [induction run, amounts_appendIf val isZero zero, amounts_cons _ coinA]
      simp only [amounts_cons, amounts_nil]
      omega
  | case5 sum coinA restA coinB restB notLt same induction =>
      obtain ⟨added, addedOk, run⟩ := bind_eq_ok.mp run
      specialize induction added
      simp only [dite_eq_ite] at induction
      obtain ⟨addedDenom, addedAmount⟩ := addSpec coinA coinB added addedOk
      rw [induction run, amounts_appendIf val isZero zero]
      simp only [amounts_cons, amounts_nil, addedDenom, ← same, addedAmount]
      split_ifs <;> omega
  | case6 sum coinA restA coinB restB notLt notSame induction =>
      simp only [dite_eq_ite] at induction
      rw [induction run, amounts_appendIf val isZero zero]
      simp only [amounts_cons, amounts_nil]
      omega

/-- The merge appends no zero coin. -/
theorem safeAddLoop_nonzero {sum coinsA coinsB res : List (CoinOf A)}
    (run : safeAddLoop isZero addCoins sum coinsA coinsB = .ok res)
    (sumNonzero : ∀ c ∈ sum, isZero c.amount = false) : ∀ c ∈ res, isZero c.amount = false := by
  -- a coin appended by a step passed the step's own zero test
  have appended : ∀ (sum : List (CoinOf A)) (coin : CoinOf A), (∀ c ∈ sum, isZero c.amount = false) →
      ∀ c ∈ (if isZero coin.amount then sum else sum ++ [coin]), isZero c.amount = false := by
    intro sum coin sumNonzero c member
    split_ifs at member with isZeroCoin
    · exact sumNonzero c member
    · rcases List.mem_append.mp member with inSum | isCoin
      · exact sumNonzero c inSum
      · rw [List.mem_singleton.mp isCoin]
        simpa using isZeroCoin
  have kept : ∀ (sum rest : List (CoinOf A)), (∀ c ∈ sum, isZero c.amount = false) →
      ∀ c ∈ sum ++ removeZero isZero rest, isZero c.amount = false := by
    intro sum rest sumNonzero c member
    rcases List.mem_append.mp member with inSum | inRest
    · exact sumNonzero c inSum
    · simpa using (List.mem_filter.mp inRest).2
  fun_induction safeAddLoop isZero addCoins sum coinsA coinsB with
  | case1 sum => rw [← Except.ok.inj run]; exact sumNonzero
  | case2 sum coinB restB => rw [← Except.ok.inj run]; exact kept _ _ sumNonzero
  | case3 sum coinA restA => rw [← Except.ok.inj run]; exact kept _ _ sumNonzero
  | case4 sum coinA restA coinB restB lt induction =>
      simp only [dite_eq_ite] at induction
      exact induction run (appended _ _ sumNonzero)
  | case5 sum coinA restA coinB restB notLt same induction =>
      obtain ⟨added, -, run⟩ := bind_eq_ok.mp run
      specialize induction added
      simp only [dite_eq_ite] at induction
      exact induction run (appended _ _ sumNonzero)
  | case6 sum coinA restA coinB restB notLt notSame induction =>
      simp only [dite_eq_ite] at induction
      exact induction run (appended _ _ sumNonzero)

/-- The merge returns as soon as `Add` returns on every pair of coins of one
denom, one from each set. -/
theorem safeAddLoop_ok (sum coinsA coinsB : List (CoinOf A))
    (total : ∀ a ∈ coinsA, ∀ b ∈ coinsB, a.denom = b.denom → ∃ r, addCoins a b = .ok r) :
    ∃ res, safeAddLoop isZero addCoins sum coinsA coinsB = .ok res := by
  fun_induction safeAddLoop isZero addCoins sum coinsA coinsB with
  | case1 sum => exact ⟨_, rfl⟩
  | case2 sum coinB restB => exact ⟨_, rfl⟩
  | case3 sum coinA restA => exact ⟨_, rfl⟩
  | case4 sum coinA restA coinB restB lt induction =>
      simp only [dite_eq_ite] at induction
      exact induction fun a inA b inB => total a (List.mem_cons_of_mem _ inA) b inB
  | case5 sum coinA restA coinB restB notLt same induction =>
      obtain ⟨added, addedOk⟩ := total coinA List.mem_cons_self coinB List.mem_cons_self same
      rw [addedOk, ok_bind]
      specialize induction added
      simp only [dite_eq_ite] at induction
      exact induction fun a inA b inB =>
        total a (List.mem_cons_of_mem _ inA) b (List.mem_cons_of_mem _ inB)
  | case6 sum coinA restA coinB restB notLt notSame induction =>
      simp only [dite_eq_ite] at induction
      exact induction fun a inA b inB => total a inA b (List.mem_cons_of_mem _ inB)

/-- The merge returns no error when `Add` returns none: it only returns or panics. -/
theorem safeAddLoop_ne_fail (addNoError : ∀ a b message, addCoins a b ≠ fail message)
    (sum coinsA coinsB : List (CoinOf A)) : ∀ message, safeAddLoop isZero addCoins sum coinsA coinsB ≠ fail message := by
  fun_induction safeAddLoop isZero addCoins sum coinsA coinsB with
  | case1 sum => exact fun message => (fail_ne_ok _ _).symm
  | case2 sum coinB restB => exact fun message => (fail_ne_ok _ _).symm
  | case3 sum coinA restA => exact fun message => (fail_ne_ok _ _).symm
  | case4 sum coinA restA coinB restB lt induction => simpa using induction
  | case5 sum coinA restA coinB restB notLt same induction =>
      exact bind_ne_fail (addNoError coinA coinB) fun res => by simpa using induction res
  | case6 sum coinA restA coinB restB notLt notSame induction => simpa using induction

/-- A coin above every denom of a set free of zero coins is appended to it. -/
theorem safeAddLoop_singleton_above (coin : CoinOf A) (nonzeroCoin : isZero coin.amount = false) :
    ∀ (sum coins : List (CoinOf A)), (∀ c ∈ coins, c.denom < coin.denom) →
      (∀ c ∈ coins, isZero c.amount = false) →
      safeAddLoop isZero addCoins sum coins [coin] = .ok (sum ++ coins ++ [coin])
  | sum, [], _, _ => by
      rw [safeAddLoop_nil_cons]
      simp [removeZero, nonzeroCoin]
  | sum, first :: rest, below, nonzero => by
      rw [safeAddLoop_lt _ _ _ _ _ _ _ (below first List.mem_cons_self),
        if_neg (by simp [nonzero first List.mem_cons_self]),
        safeAddLoop_singleton_above coin nonzeroCoin _ rest
          (fun c inRest => below c (List.mem_cons_of_mem _ inRest))
          (fun c inRest => nonzero c (List.mem_cons_of_mem _ inRest))]
      simp

/-- On sets sorted strictly by denom, `safeAdd` is pointwise addition. -/
theorem safeAdd_isPointwiseSum (zero : ∀ x, isZero x = true → val x = 0)
    (addSpec : ∀ a b r, addCoins a b = .ok r → r.denom = a.denom ∧ val r.amount = val a.amount + val b.amount)
    {coinsA coinsB sum : List (CoinOf A)} (ascendingA : coinsA.Pairwise (·.denom < ·.denom))
    (ascendingB : coinsB.Pairwise (·.denom < ·.denom))
    (added : safeAdd isZero addCoins coinsA coinsB = .ok sum) :
    IsPointwiseSum val isZero coinsA coinsB sum where
  ascending := safeAddLoop_ascending isZero addCoins (fun a b r ok => (addSpec a b r ok).1)
    ⟨List.Pairwise.nil, ascendingA, ascendingB, by simp⟩ added
  nonzero := safeAddLoop_nonzero isZero addCoins added (by simp)
  amounts_eq := fun denom => by
    rw [safeAddLoop_amounts val isZero addCoins zero addSpec added denom, amounts_nil, Int.zero_add]

end Merge

/-! ## Subtraction -/

section Sub

variable (isZero : A → Bool) (neg : A → A) (isNegative : A → Bool)
  (addCoins : CoinOf A → CoinOf A → Result (CoinOf A))

/-- `negative`: each amount negated. -/
def negative (coins : List (CoinOf A)) : List (CoinOf A) :=
  coins.map fun coin => ⟨coin.denom, neg coin.amount⟩

/-- `IsAnyNegative`. -/
def isAnyNegative (coins : List (CoinOf A)) : Bool :=
  coins.any fun coin => isNegative coin.amount

/-- `SafeSub`: the merge with the negated set, and whether the result holds a
negative amount. -/
def safeSub (coins coinsB : List (CoinOf A)) : Result (List (CoinOf A) × Bool) := do
  let diff ← safeAdd isZero addCoins coins (negative neg coinsB)
  pure (diff, isAnyNegative isNegative diff)

/-- `Sub`. -/
def sub (coins coinsB : List (CoinOf A)) : Result (List (CoinOf A)) := do
  let (diff, hasNeg) ← safeSub isZero neg isNegative addCoins coins coinsB
  if hasNeg then panicWith "negative coin amount"
  pure diff

theorem negative_ascending {coins : List (CoinOf A)} (ascending : coins.Pairwise (·.denom < ·.denom)) :
    (negative neg coins).Pairwise (·.denom < ·.denom) := by
  rw [negative, List.pairwise_map]
  exact ascending

variable (val : A → Int)

theorem amounts_negative (negVal : ∀ x, val (neg x) = -val x) (coins : List (CoinOf A))
    (denom : String) : amounts val (negative neg coins) denom = -amounts val coins denom := by
  induction coins with
  | nil => rfl
  | cons coin rest induction =>
      rw [negative, List.map_cons, ← negative, amounts_cons, amounts_cons, induction, negVal]
      split_ifs <;> omega

/-- On a set sorted strictly by denom, `IsAnyNegative` asks whether some denom
holds a negative amount. -/
theorem isAnyNegative_iff (negativeIff : ∀ x, isNegative x = true ↔ val x < 0)
    {coins : List (CoinOf A)} (ascending : coins.Pairwise (·.denom < ·.denom)) :
    isAnyNegative isNegative coins = true ↔ ∃ denom, amounts val coins denom < 0 := by
  rw [isAnyNegative, List.any_eq_true]
  constructor
  · rintro ⟨coin, member, below⟩
    exact ⟨coin.denom, by rw [amounts_of_mem val ascending member]; exact (negativeIff _).mp below⟩
  · rintro ⟨denom, below⟩
    -- a denom that holds something is the denom of one of the coins
    by_cases present : ∃ coin ∈ coins, coin.denom = denom
    · obtain ⟨coin, member, rfl⟩ := present
      rw [amounts_of_mem val ascending member] at below
      exact ⟨coin, member, (negativeIff _).mpr below⟩
    · rw [amounts_of_absent val fun c member same => present ⟨c, member, same⟩] at below
      exact absurd below (lt_irrefl 0)

/-- What `SafeSub` of two sets is: their pointwise difference, sorted strictly
by denom and free of zero coins, with a flag set exactly when the second set
holds more of some denom. -/
structure IsPointwiseDiff (coinsA coinsB diff : List (CoinOf A)) (hasNeg : Bool) : Prop where
  ascending : diff.Pairwise (·.denom < ·.denom)
  nonzero : ∀ c ∈ diff, isZero c.amount = false
  amounts_eq : ∀ denom, amounts val diff denom = amounts val coinsA denom - amounts val coinsB denom
  flag : hasNeg = true ↔ ∃ denom, amounts val coinsA denom < amounts val coinsB denom

section Spec

variable (zero : ∀ x, isZero x = true → val x = 0) (negVal : ∀ x, val (neg x) = -val x)
  (negativeIff : ∀ x, isNegative x = true ↔ val x < 0)
  (addSpec : ∀ a b r, addCoins a b = .ok r → r.denom = a.denom ∧ val r.amount = val a.amount + val b.amount)

include zero negVal negativeIff addSpec in
/-- What `SafeSub` of sets sorted strictly by denom returns, when it returns. -/
theorem safeSub_spec {coins coinsB diff : List (CoinOf A)} {hasNeg : Bool}
    (ascending : coins.Pairwise (·.denom < ·.denom)) (ascendingB : coinsB.Pairwise (·.denom < ·.denom))
    (subtracted : safeSub isZero neg isNegative addCoins coins coinsB = .ok (diff, hasNeg)) :
    IsPointwiseDiff isZero val coins coinsB diff hasNeg := by
  obtain ⟨merged, added, returned⟩ := bind_eq_ok.mp subtracted
  cases returned
  have sum := safeAdd_isPointwiseSum val isZero addCoins zero addSpec ascending
    (negative_ascending neg ascendingB) added
  have pointwise : ∀ denom, amounts val diff denom = amounts val coins denom - amounts val coinsB denom := by
    intro denom
    rw [sum.amounts_eq, amounts_negative neg val negVal]
    omega
  refine ⟨sum.ascending, sum.nonzero, pointwise, ?_⟩
  rw [isAnyNegative_iff isNegative val negativeIff sum.ascending]
  exact exists_congr fun denom => by rw [pointwise]; omega

/-- `Sub` panics exactly when `SafeSub` sets its flag. -/
theorem sub_of_safeSub {coins coinsB diff : List (CoinOf A)} {hasNeg : Bool}
    (subtracted : safeSub isZero neg isNegative addCoins coins coinsB = .ok (diff, hasNeg)) :
    sub isZero neg isNegative addCoins coins coinsB =
      if hasNeg then panicWith "negative coin amount" else .ok diff := by
  rw [sub, subtracted, ok_bind]
  cases hasNeg <;> rfl

include zero negVal negativeIff addSpec in
/-- `SafeSub` of sets sorted strictly by denom returns as soon as `Add` returns on
each coin of the first set and the negated coin of the second of its denom. -/
theorem safeSub_of_total {coins coinsB : List (CoinOf A)}
    (ascending : coins.Pairwise (·.denom < ·.denom)) (ascendingB : coinsB.Pairwise (·.denom < ·.denom))
    (total : ∀ a ∈ coins, ∀ b ∈ coinsB, a.denom = b.denom → ∃ r, addCoins a ⟨b.denom, neg b.amount⟩ = .ok r) :
    ∃ diff hasNeg, safeSub isZero neg isNegative addCoins coins coinsB = .ok (diff, hasNeg) ∧
      IsPointwiseDiff isZero val coins coinsB diff hasNeg ∧
      sub isZero neg isNegative addCoins coins coinsB =
        if hasNeg then panicWith "negative coin amount" else .ok diff := by
  obtain ⟨diff, merged⟩ := safeAddLoop_ok isZero addCoins [] coins (negative neg coinsB)
    fun a inA b inB same => by
      obtain ⟨source, inSource, rfl⟩ := List.mem_map.mp inB
      exact total a inA source inSource same
  have subtracted : safeSub isZero neg isNegative addCoins coins coinsB =
      .ok (diff, isAnyNegative isNegative diff) := by
    rw [safeSub, safeAdd, merged]
    rfl
  exact ⟨diff, _, subtracted,
    safeSub_spec isZero neg isNegative addCoins val zero negVal negativeIff addSpec ascending ascendingB
      subtracted, sub_of_safeSub isZero neg isNegative addCoins subtracted⟩

end Spec

end Sub

end CoinOf

/-! ## `Coins.Add` and `DecCoins.Add` -/

theorem SdkInt.isZero_eq_true {x : Int} (zero : SdkInt.isZero x = true) : x = 0 := by
  simpa [SdkInt.isZero] using zero

theorem Dec.isZero_eq_true {x : Dec} (zero : Dec.isZero x = true) : x.i = 0 := by
  simpa [Dec.isZero] using zero

theorem Coin.add_spec (a b r : Coin) (added : Coin.add a b = .ok r) :
    r.denom = a.denom ∧ r.amount = a.amount + b.amount := by
  rw [Coin.add_eq_ok added]
  exact ⟨rfl, rfl⟩

/-- `Coin.Add` of two coins of one denom returns unless the sum overflows. -/
theorem Coin.add_of_fits (a b : Coin) (same : a.denom = b.denom)
    (fits : bitLen (a.amount + b.amount) ≤ SdkInt.maxBitLen) :
    Coin.add a b = .ok ⟨a.denom, a.amount + b.amount⟩ := by
  rw [Coin.add, if_neg (not_not.mpr same), SdkInt.add_of_fits _ _ fits]
  rfl

/-- `DecCoin.Add` of two coins of one denom returns unless the sum overflows. -/
theorem DecCoin.add_of_fits (a b : DecCoin) (same : a.denom = b.denom)
    (fits : bitLen (a.amount.i + b.amount.i) ≤ 255 + Dec.decimalPrecisionBits) :
    DecCoin.add a b = .ok ⟨a.denom, ⟨a.amount.i + b.amount.i⟩⟩ := by
  rw [DecCoin.add, if_neg (not_not.mpr same), Dec.add, if_neg (not_lt.mpr fits)]
  rfl

theorem Coin.add_ne_fail (a b : Coin) (message : String) : Coin.add a b ≠ fail message := by
  unfold Coin.add
  split_ifs
  · exact panicWith_ne_fail _ _
  · exact bind_ne_fail (SdkInt.add_ne_fail _ _) (fun _ _ => (fail_ne_ok _ _).symm) message

theorem DecCoin.add_ne_fail (a b : DecCoin) (message : String) : DecCoin.add a b ≠ fail message := by
  unfold DecCoin.add
  split_ifs
  · exact panicWith_ne_fail _ _
  · exact bind_ne_fail (Dec.add_ne_fail _ _) (fun _ _ => (fail_ne_ok _ _).symm) message

/-- `Coins.Add` and `DecCoins.Add` on sets sorted strictly by denom, zero coins
allowed: whatever they return is the pointwise sum, and they return whenever no
sum of two amounts of one denom overflows. -/
theorem add_isPointwiseSum (coins coinsB : Coins) (decCoins decCoinsB : DecCoins)
    (ascending : coins.Pairwise (·.denom < ·.denom)) (ascendingB : coinsB.Pairwise (·.denom < ·.denom))
    (decAscending : decCoins.Pairwise (·.denom < ·.denom))
    (decAscendingB : decCoinsB.Pairwise (·.denom < ·.denom)) :
    (∀ sum, Coins.add coins coinsB = .ok sum → CoinOf.IsPointwiseSum id SdkInt.isZero coins coinsB sum) ∧
      (∀ sum, DecCoins.add decCoins decCoinsB = .ok sum →
        CoinOf.IsPointwiseSum Dec.i Dec.isZero decCoins decCoinsB sum) ∧
      ((∀ a ∈ coins, ∀ b ∈ coinsB, a.denom = b.denom → bitLen (a.amount + b.amount) ≤ SdkInt.maxBitLen) →
        ∃ sum, Coins.add coins coinsB = .ok sum) ∧
      ((∀ a ∈ decCoins, ∀ b ∈ decCoinsB, a.denom = b.denom →
          bitLen (a.amount.i + b.amount.i) ≤ 255 + Dec.decimalPrecisionBits) →
        ∃ sum, DecCoins.add decCoins decCoinsB = .ok sum) := by
  refine ⟨fun sum added => ?_, fun sum added => ?_, fun fits => ?_, fun fits => ?_⟩
  · exact CoinOf.safeAdd_isPointwiseSum id SdkInt.isZero Coin.add (fun _ => SdkInt.isZero_eq_true)
      Coin.add_spec ascending ascendingB added
  · exact CoinOf.safeAdd_isPointwiseSum Dec.i Dec.isZero DecCoin.add (fun _ => Dec.isZero_eq_true)
      (fun a b r added => DecCoin.add_eq_ok added) decAscending decAscendingB added
  · exact CoinOf.safeAddLoop_ok SdkInt.isZero Coin.add [] coins coinsB fun a inA b inB same =>
      ⟨_, Coin.add_of_fits a b same (fits a inA b inB same)⟩
  · exact CoinOf.safeAddLoop_ok Dec.isZero DecCoin.add [] decCoins decCoinsB fun a inA b inB same =>
      ⟨_, DecCoin.add_of_fits a b same (fits a inA b inB same)⟩

/-- Two coins of one denom that cancel, and a zero coin, both dropped. -/
theorem add_isPointwiseSum_cancel :
    Coins.add [⟨"aaa", 1⟩, ⟨"bbb", 2⟩] [⟨"bbb", -2⟩, ⟨"ccc", 0⟩] = .ok [⟨"aaa", 1⟩] ∧
      CoinOf.IsPointwiseSum id SdkInt.isZero [⟨"aaa", 1⟩, ⟨"bbb", 2⟩] [⟨"bbb", -2⟩, ⟨"ccc", 0⟩]
        [⟨"aaa", 1⟩] := by
  have added : Coins.add [⟨"aaa", 1⟩, ⟨"bbb", 2⟩] [⟨"bbb", -2⟩, ⟨"ccc", 0⟩] = .ok [⟨"aaa", 1⟩] := by
    rw [Coins.add, Coins.safeAdd, CoinOf.safeAdd, CoinOf.safeAddLoop_lt _ _ _ _ _ _ _ (by decide),
      CoinOf.safeAddLoop_eq SdkInt.isZero Coin.add _ ⟨"bbb", 2⟩ ⟨"bbb", -2⟩ [] _ rfl,
      Coin.add_of_fits ⟨"bbb", 2⟩ ⟨"bbb", -2⟩ rfl (by decide), ok_bind, CoinOf.safeAddLoop_nil_cons]
    decide
  exact ⟨added, (add_isPointwiseSum _ _ [] [] (by decide) (by decide) List.Pairwise.nil
    List.Pairwise.nil).1 _ added⟩

/-! ## `SafeSub` and `Sub` -/

namespace Coins

/-- `Coins.negative`. -/
def negative (coins : Coins) : Coins := CoinOf.negative SdkInt.neg coins

/-- `Coins.IsAnyNegative`. -/
def isAnyNegative (coins : Coins) : Bool := CoinOf.isAnyNegative SdkInt.isNegative coins

/-- `Coins.SafeSub`. -/
def safeSub (coins coinsB : Coins) : Result (Coins × Bool) :=
  CoinOf.safeSub SdkInt.isZero SdkInt.neg SdkInt.isNegative Coin.add coins coinsB

/-- `Coins.Sub`. -/
def sub (coins coinsB : Coins) : Result Coins :=
  CoinOf.sub SdkInt.isZero SdkInt.neg SdkInt.isNegative Coin.add coins coinsB

end Coins

namespace DecCoins

/-- `DecCoins.negative`. -/
def negative (coins : DecCoins) : DecCoins := CoinOf.negative Dec.neg coins

/-- `DecCoins.IsAnyNegative`. -/
def isAnyNegative (coins : DecCoins) : Bool := CoinOf.isAnyNegative Dec.isNegative coins

/-- `DecCoins.SafeSub`. -/
def safeSub (coins coinsB : DecCoins) : Result (DecCoins × Bool) :=
  CoinOf.safeSub Dec.isZero Dec.neg Dec.isNegative DecCoin.add coins coinsB

/-- `DecCoins.Sub`. -/
def sub (coins coinsB : DecCoins) : Result DecCoins :=
  CoinOf.sub Dec.isZero Dec.neg Dec.isNegative DecCoin.add coins coinsB

end DecCoins

/-- The difference of two positive amounts of at most `n` bits has at most `n` bits. -/
theorem bitLen_sub_le {a b : Int} {n : Nat} (positive : 0 < a) (positiveB : 0 < b)
    (fits : bitLen a ≤ n) (fitsB : bitLen b ≤ n) : bitLen (a + -b) ≤ n := by
  rw [bitLen_le_iff] at fits fitsB ⊢
  omega

/-- A decimal difference past 315 bits: `DecCoins.SafeSub` of two valid one-coin
sets, the first holding more, panics in `Dec.Add`, and so does `Sub`, though no
amount would come out negative. -/
theorem decCoins_sub_overflow (nonAscii : Char → Char) (denom : String) (x y : Int)
    (accepted : matchesDenom denom = true) (positive : 0 < y) (larger : y < x)
    (tooLong : 255 + Dec.decimalPrecisionBits < bitLen (x - y)) :
    DecCoins.isValid nonAscii [⟨denom, ⟨x⟩⟩] = true ∧ DecCoins.isValid nonAscii [⟨denom, ⟨y⟩⟩] = true ∧
      (∀ d, CoinOf.amounts Dec.i [⟨denom, ⟨y⟩⟩] d ≤ CoinOf.amounts Dec.i [⟨denom, ⟨x⟩⟩] d) ∧
      DecCoins.safeSub [⟨denom, ⟨x⟩⟩] [⟨denom, ⟨y⟩⟩] = panicWith "Int overflow" ∧
      DecCoins.sub [⟨denom, ⟨x⟩⟩] [⟨denom, ⟨y⟩⟩] = panicWith "Int overflow" := by
  have valid : ∀ z : Int, 0 < z → DecCoins.isValid nonAscii [⟨denom, ⟨z⟩⟩] = true := by
    intro z positiveZ
    simp [DecCoins.isValid, CoinOf.isValid, CoinOf.isValidFirst, validateDenom_of_matches accepted,
      Except.toBool, Dec.isPositive, positiveZ]
  -- the one `Dec.Add` the merge makes, of `x` and `-y`
  have overflow : DecCoin.add ⟨denom, ⟨x⟩⟩ ⟨denom, Dec.neg ⟨y⟩⟩ = panicWith "Int overflow" := by
    rw [DecCoin.add, if_neg (not_not.mpr rfl), Dec.add, if_pos (by simpa [Dec.neg, ← Int.sub_eq_add_neg] using tooLong)]
    rfl
  have subtracted : DecCoins.safeSub [⟨denom, ⟨x⟩⟩] [⟨denom, ⟨y⟩⟩] = panicWith "Int overflow" := by
    rw [DecCoins.safeSub, CoinOf.safeSub, CoinOf.safeAdd, CoinOf.negative, List.map_singleton,
      CoinOf.safeAddLoop_eq Dec.isZero DecCoin.add [] ⟨denom, ⟨x⟩⟩ ⟨denom, Dec.neg ⟨y⟩⟩ [] [] rfl, overflow]
    rfl
  refine ⟨valid x (by omega), valid y positive, ?_, subtracted, ?_⟩
  · intro d
    simp only [CoinOf.amounts_cons, CoinOf.amounts_nil]
    split_ifs <;> omega
  · rw [DecCoins.sub, CoinOf.sub, ← DecCoins.safeSub, subtracted]
    rfl

/-- `10^100` of a coin less one, at eighteen decimals. -/
theorem decCoins_sub_overflow_large :
    DecCoins.isValid id [⟨"atom", ⟨10 ^ 118⟩⟩] = true ∧ DecCoins.isValid id [⟨"atom", ⟨10 ^ 18⟩⟩] = true ∧
      DecCoins.sub [⟨"atom", ⟨10 ^ 118⟩⟩] [⟨"atom", ⟨10 ^ 18⟩⟩] = panicWith "Int overflow" := by
  have tooLong : 255 + Dec.decimalPrecisionBits < bitLen (10 ^ 118 - 10 ^ 18) := by
    rw [← not_le, bitLen_le_iff, not_lt]
    calc 2 ^ (255 + Dec.decimalPrecisionBits) = 8 ^ 105 := by
          rw [show 255 + Dec.decimalPrecisionBits = 3 * 105 from rfl, pow_mul]
          rfl
      _ ≤ 10 ^ 105 := Nat.pow_le_pow_left (by decide) 105
      _ ≤ (10 ^ 118 - 10 ^ 18 : Int).natAbs := by decide
  obtain ⟨valid, validB, -, -, panics⟩ :=
    decCoins_sub_overflow id "atom" (10 ^ 118) (10 ^ 18) (by decide) (by decide) (by decide) tooLong
  exact ⟨valid, validB, panics⟩

/-- `Coins.SafeSub` and `DecCoins.SafeSub` on valid sets whose amounts stay
within the bounds of `Int` (255 bits) and of `Dec.Add` (315 bits): they return
the pointwise difference and the flag of `IsPointwiseDiff`, and `Sub` panics
exactly when the flag is set. -/
theorem safeSub_isPointwiseDiff (nonAscii : Char → Char) (coins coinsB : Coins)
    (decCoins decCoinsB : DecCoins)
    (valid : Coins.isValid nonAscii coins = true) (validB : Coins.isValid nonAscii coinsB = true)
    (decValid : DecCoins.isValid nonAscii decCoins = true)
    (decValidB : DecCoins.isValid nonAscii decCoinsB = true)
    (bounded : ∀ c ∈ coins ++ coinsB, bitLen c.amount ≤ SdkInt.maxBitLen)
    (decBounded : ∀ c ∈ decCoins ++ decCoinsB, bitLen c.amount.i ≤ 255 + Dec.decimalPrecisionBits) :
    (∃ diff hasNeg, Coins.safeSub coins coinsB = .ok (diff, hasNeg) ∧
      CoinOf.IsPointwiseDiff SdkInt.isZero id coins coinsB diff hasNeg ∧
      Coins.sub coins coinsB = if hasNeg then panicWith "negative coin amount" else .ok diff) ∧
    (∃ diff hasNeg, DecCoins.safeSub decCoins decCoinsB = .ok (diff, hasNeg) ∧
      CoinOf.IsPointwiseDiff Dec.isZero Dec.i decCoins decCoinsB diff hasNeg ∧
      DecCoins.sub decCoins decCoinsB = if hasNeg then panicWith "negative coin amount" else .ok diff) := by
  rw [Coins.isValid, CoinOf.isValid_iff] at valid validB
  rw [DecCoins.isValid, CoinOf.isValid_iff] at decValid decValidB
  constructor
  · -- no difference of two positive amounts of at most 255 bits overflows
    apply CoinOf.safeSub_of_total SdkInt.isZero SdkInt.neg SdkInt.isNegative Coin.add id
      (fun _ => SdkInt.isZero_eq_true) (fun _ => rfl) (fun x => by simp [SdkInt.isNegative]) Coin.add_spec
      valid.ascending validB.ascending
    intro a inA b inB same
    have positive : 0 < a.amount := by simpa [SdkInt.isPositive] using valid.positive a inA
    have positiveB : 0 < b.amount := by simpa [SdkInt.isPositive] using validB.positive b inB
    exact ⟨_, Coin.add_of_fits a _ same (bitLen_sub_le positive positiveB
      (bounded a (List.mem_append_left _ inA)) (bounded b (List.mem_append_right _ inB)))⟩
  · -- nor of two of at most 315 bits
    apply CoinOf.safeSub_of_total Dec.isZero Dec.neg Dec.isNegative DecCoin.add Dec.i
      (fun _ => Dec.isZero_eq_true) (fun _ => rfl) (fun x => by simp [Dec.isNegative])
      (fun a b r added => DecCoin.add_eq_ok added) decValid.ascending decValidB.ascending
    intro a inA b inB same
    have positive : 0 < a.amount.i := by simpa [Dec.isPositive] using decValid.positive a inA
    have positiveB : 0 < b.amount.i := by simpa [Dec.isPositive] using decValidB.positive b inB
    exact ⟨_, DecCoin.add_of_fits a _ same (bitLen_sub_le positive positiveB
      (decBounded a (List.mem_append_left _ inA)) (decBounded b (List.mem_append_right _ inB)))⟩

/-- `{3aaa} - {1aaa, 1bbb}`: the second set holds more `bbb`, and `Sub` panics. -/
theorem safeSub_isPointwiseDiff_panics :
    Coins.sub [⟨"aaa", 3⟩] [⟨"aaa", 1⟩, ⟨"bbb", 1⟩] = panicWith "negative coin amount" := by
  have bounded : ∀ c ∈ ([⟨"aaa", 3⟩, ⟨"aaa", 1⟩, ⟨"bbb", 1⟩] : Coins), bitLen c.amount ≤ SdkInt.maxBitLen := by
    intro c member
    rw [bitLen_le_iff]
    simp only [List.mem_cons, List.not_mem_nil, or_false] at member
    rcases member with rfl | rfl | rfl <;> decide
  obtain ⟨⟨diff, hasNeg, -, outcome, sub⟩, -⟩ :=
    safeSub_isPointwiseDiff id [⟨"aaa", 3⟩] [⟨"aaa", 1⟩, ⟨"bbb", 1⟩] [] [] (by decide) (by decide) rfl rfl
      bounded (by simp)
  have flagged : hasNeg = true := outcome.flag.mpr ⟨"bbb", by simp⟩
  rw [sub, flagged, if_pos rfl]
/-! ## `Coins.IsEqual` -/

namespace Coin

/-- `Coin.IsEqual`: the amounts compared, after a panic on coins of different denoms. -/
def isEqual (coin other : Coin) : Result Bool :=
  if coin.denom ≠ other.denom then
    panicWith ("invalid coin denominations; " ++ coin.denom ++ ", " ++ other.denom)
  else .ok (decide (coin.amount = other.amount))

theorem isEqual_self (coin : Coin) : isEqual coin coin = .ok true := by
  simp [isEqual]

theorem eq_of_isEqual {coin other : Coin} (equal : isEqual coin other = .ok true) : coin = other := by
  unfold isEqual at equal
  split_ifs at equal with differ
  · exact absurd equal (panicWith_ne_ok _ _)
  · have sameAmount : coin.amount = other.amount := by simpa using equal
    cases coin
    cases other
    simp_all

end Coin

namespace Coins

/-- The loop of `Coins.IsEqual`, `coins[i].IsEqual(coinsB[i])` for each index of
the sorted sets, which have one length there. -/
def isEqualLoop : Coins → Coins → Result Bool
  | coin :: rest, coinB :: restB => do
      let equal ← Coin.isEqual coin coinB
      if !equal then return false
      isEqualLoop rest restB
  | _, _ => .ok true

/-- `Coins.IsEqual`, `sort.Sort` being `sortCoins`. -/
def isEqual (sortCoins : Coins → Coins) (coins coinsB : Coins) : Result Bool :=
  if coins.length ≠ coinsB.length then .ok false
  else isEqualLoop (sortCoins coins) (sortCoins coinsB)

/-- A common run of coins is passed over. -/
theorem isEqualLoop_append_self (common coins coinsB : Coins) :
    isEqualLoop (common ++ coins) (common ++ coinsB) = isEqualLoop coins coinsB := by
  induction common with
  | nil => rfl
  | cons coin rest induction =>
      simp only [List.cons_append, isEqualLoop, Coin.isEqual_self, ok_bind, Bool.not_true]
      exact induction

theorem isEqualLoop_self (coins : Coins) : isEqualLoop coins coins = .ok true := by
  simpa [isEqualLoop] using isEqualLoop_append_self coins [] []

/-- The first coins that differ in denom panic. -/
theorem isEqualLoop_of_denoms_differ (coin coinB : Coin) (rest restB : Coins)
    (differ : coin.denom ≠ coinB.denom) :
    isEqualLoop (coin :: rest) (coinB :: restB) =
      panicWith ("invalid coin denominations; " ++ coin.denom ++ ", " ++ coinB.denom) := by
  rw [isEqualLoop, Coin.isEqual, if_pos differ, panicWith_bind]

/-- The loop answers true on sets of one length only when they are the same. -/
theorem eq_of_isEqualLoop : ∀ {coins coinsB : Coins}, coins.length = coinsB.length →
    isEqualLoop coins coinsB = .ok true → coins = coinsB
  | [], [], _, _ => rfl
  | coin :: rest, coinB :: restB, sameLength, equal => by
      obtain ⟨first, compared, rest⟩ := bind_eq_ok.mp equal
      cases first with
      | false => cases rest
      | true =>
          rw [Coin.eq_of_isEqual compared,
            eq_of_isEqualLoop (Nat.succ.inj sameLength) rest]

section Sorting

variable (sortCoins : Coins → Coins) (permutes : ∀ coins, (sortCoins coins).Perm coins)
  (sorted : ∀ coins, (sortCoins coins).Pairwise (·.denom ≤ ·.denom))

include permutes sorted in
/-- Sorting a set sorted strictly by denom leaves it as it is, whatever order
the sort gives coins of one denom. -/
theorem sortCoins_of_ascending {coins : Coins} (ascending : coins.Pairwise (·.denom < ·.denom)) :
    sortCoins coins = coins := by
  have distinct : (sortCoins coins).Pairwise (·.denom ≠ ·.denom) :=
    ((permutes coins).pairwise_iff fun differ => Ne.symm differ).mpr (ascending.imp ne_of_lt)
  have strict : (sortCoins coins).Pairwise (·.denom < ·.denom) :=
    ((sorted coins).and distinct).imp fun both => lt_of_le_of_ne both.1 both.2
  exact (permutes coins).eq_of_pairwise (fun _ _ _ _ lt gt => absurd (lt_trans lt gt) (lt_irrefl _))
    strict ascending

include permutes sorted in
/-- `IsEqual` on sets sorted strictly by denom compares them in place. -/
theorem isEqual_of_ascending {coins coinsB : Coins} (ascending : coins.Pairwise (·.denom < ·.denom))
    (ascendingB : coinsB.Pairwise (·.denom < ·.denom)) :
    isEqual sortCoins coins coinsB =
      if coins.length ≠ coinsB.length then .ok false else isEqualLoop coins coinsB := by
  rw [isEqual, sortCoins_of_ascending sortCoins permutes sorted ascending,
    sortCoins_of_ascending sortCoins permutes sorted ascendingB]

end Sorting

end Coins

/-! ## `IsZero`, `AmountOf` and `DenomsSubsetOf` -/

/-- `mustValidateDenom`. -/
def mustValidateDenom (denom : String) : Result Unit :=
  match validateDenom denom with
  | .error err => panicWith err
  | .ok () => pure ()

namespace CoinOf

variable {A : Type}

/-- The body of `Coins.AmountOf` and `DecCoins.AmountOf`, `zero` being the zero
amount: a binary search on the halves, each level validating the denom again. -/
def amountOf (zero : A) (coins : List (CoinOf A)) (denom : String) : Result A := do
  mustValidateDenom denom
  match coins with
  | [] => pure zero
  | [coin] => pure (if coin.denom = denom then coin.amount else zero)
  | first :: second :: rest =>
      let midIdx := (first :: second :: rest).length / 2 -- 2:1, 3:1, 4:2
      let coin := (first :: second :: rest).get ⟨midIdx, Nat.div_lt_self (Nat.succ_pos _) Nat.one_lt_two⟩
      if denom < coin.denom then amountOf zero ((first :: second :: rest).take midIdx) denom
      else if denom = coin.denom then pure coin.amount
      else amountOf zero ((first :: second :: rest).drop (midIdx + 1)) denom
termination_by coins.length
decreasing_by all_goals simp only [List.length_take, List.length_drop, List.length_cons]; omega

theorem amountOf_nil (zero : A) (denom : String) :
    amountOf zero [] denom = (do mustValidateDenom denom; pure zero) := by
  rw [amountOf]

theorem amountOf_singleton (zero : A) (coin : CoinOf A) (denom : String) :
    amountOf zero [coin] denom =
      (do mustValidateDenom denom; pure (if coin.denom = denom then coin.amount else zero)) := by
  unfold amountOf
  rfl

end CoinOf

namespace Coins

/-- `Coins.IsZero`. -/
def isZero (coins : Coins) : Bool := coins.all fun coin => SdkInt.isZero coin.amount

/-- `Coins.AmountOf`. -/
def amountOf (coins : Coins) (denom : String) : Result Int := CoinOf.amountOf 0 coins denom

/-- `Coins.DenomsSubsetOf`: the loop returns at the first denom `coinsB` holds none of. -/
def denomsSubsetOf (coins coinsB : Coins) : Result Bool :=
  -- more denoms in B than in receiver
  if coins.length > coinsB.length then pure false
  else coins.allM fun coin => do
    let amount ← amountOf coinsB coin.denom
    pure !SdkInt.isZero amount

/-- A set without zero coins is zero exactly when it is empty. -/
theorem isZero_iff_eq_nil {coins : Coins} (nonzero : ∀ c ∈ coins, SdkInt.isZero c.amount = false) :
    isZero coins = true ↔ coins = [] := by
  rw [isZero, List.all_eq_true]
  constructor
  · intro zero
    cases coins with
    | nil => rfl
    | cons coin rest =>
      have both := (zero coin List.mem_cons_self).symm.trans (nonzero coin List.mem_cons_self)
      exact absurd both (by decide)
  · rintro rfl
    simp

end Coins

namespace DecCoins

/-- `DecCoins.AmountOf`. -/
def amountOf (coins : DecCoins) (denom : String) : Result Dec := CoinOf.amountOf ⟨0⟩ coins denom

end DecCoins

end CoreSdk.Types
