import CoreSdk.Types.CoinCompare
import CoreSdk.Types.DecArith

/-!
# Scaling and intersecting decimal coin sets

`DecCoins.MulDec`, `MulDecTruncate`, `QuoDec` and `QuoDecTruncate`
(`types/dec_coin.go`) run one loop: each amount through a product or a
quotient, each nonzero result added with `Add` to the set built so far. `Add`
merges a sorted set with a one-coin set, so the loop sorts as it goes: whatever
the order of its input and however often a denom repeats in it, what it
returns is sorted strictly by denom, has no zero coin and holds at each denom
the sum of that denom's results (`scaleLoop_spec`). When the denoms are
distinct no two results meet, and the loop returns whenever every product
does (`scaleLoop_ok`).

`DecCoins.Intersect` keeps, for each coin of the first set, the smaller of its
amount and what the second set holds of its denom, and drops the zeros. On
valid sets it is the pointwise minimum, and a valid set (`intersect_spec`).
-/

namespace CoreSdk.Types

open Go

set_option autoImplicit false

/-- `MinDec`. -/
def Dec.minDec (d1 d2 : Dec) : Dec := if d1.i < d2.i then d1 else d2

namespace DecCoins

/-- One turn of the loop of `MulDec`, `MulDecTruncate`, `QuoDec` and
`QuoDecTruncate`: the coin's amount through `op`, added to `res` unless zero. -/
def scaleStep (op : Dec → Result Dec) (res : DecCoins) (coin : DecCoin) : Result DecCoins := do
  let amount ← op coin.amount
  let product : DecCoin := ⟨coin.denom, amount⟩
  if !Dec.isZero product.amount then add res [product] else pure res

/-- The loop of `MulDec`, `MulDecTruncate`, `QuoDec` and `QuoDecTruncate`. -/
def scaleLoop (op : Dec → Result Dec) (coins : DecCoins) : Result DecCoins :=
  coins.foldlM (scaleStep op) []

/-- `DecCoins.MulDec`. -/
def mulDec (coins : DecCoins) (d : Dec) : Result DecCoins :=
  scaleLoop (fun amount => Dec.mul amount d) coins

/-- `DecCoins.MulDecTruncate`. -/
def mulDecTruncate (coins : DecCoins) (d : Dec) : Result DecCoins :=
  scaleLoop (fun amount => Dec.mulTruncate amount d) coins

/-- `DecCoins.QuoDec`. -/
def quoDec (coins : DecCoins) (d : Dec) : Result DecCoins :=
  if Dec.isZero d then panicWith "invalid zero decimal"
  else scaleLoop (fun amount => Dec.quo amount d) coins

/-- `DecCoins.QuoDecTruncate`. -/
def quoDecTruncate (coins : DecCoins) (d : Dec) : Result DecCoins :=
  if Dec.isZero d then panicWith "invalid zero decimal"
  else scaleLoop (fun amount => Dec.quoTruncate amount d) coins

/-- `DecCoins.Intersect`. -/
def intersect (coins coinsB : DecCoins) : Result DecCoins := do
  let res ← coins.mapM fun coin => do
    let amount ← amountOf coinsB coin.denom
    pure (⟨coin.denom, Dec.minDec coin.amount amount⟩ : DecCoin)
  pure (removeZeroDecCoins res)

end DecCoins

theorem Dec.minDec_i (d1 d2 : Dec) : (Dec.minDec d1 d2).i = min d1.i d2.i := by
  unfold Dec.minDec
  split_ifs with lower
  · exact (min_eq_left lower.le).symm
  · exact (min_eq_right (not_lt.mp lower)).symm

theorem Dec.eq_of_i {d : Dec} {x : Int} (same : d.i = x) : d = ⟨x⟩ := by
  cases d
  cases same
  rfl

namespace DecCoins

/-! ## The scaling loop -/

section Scale

variable (op : Dec → Result Dec) (f : Dec → Dec)

/-- What the loop has built from the coins it has done: a set sorted strictly
by denom, with no zero coin, holding at each denom the sum of the results `f`
gives that denom's amounts. -/
structure ScaledFrom (done res : DecCoins) : Prop where
  ascending : res.Pairwise (·.denom < ·.denom)
  nonzero : ∀ c ∈ res, Dec.isZero c.amount = false
  amounts_eq : ∀ denom, CoinOf.amounts Dec.i res denom = CoinOf.amounts (fun a => (f a).i) done denom

theorem ScaledFrom.nil : ScaledFrom f [] [] :=
  ⟨List.Pairwise.nil, by simp, by simp⟩

/-- The denoms the loop has built are among those it has done. -/
theorem ScaledFrom.denom_mem {done res : DecCoins} (scaled : ScaledFrom f done res) {c : DecCoin}
    (member : c ∈ res) : c.denom ∈ done.map (·.denom) := by
  have held : CoinOf.amounts Dec.i res c.denom ≠ 0 := by
    rw [CoinOf.amounts_of_mem Dec.i scaled.ascending member]
    simpa [Dec.isZero] using scaled.nonzero c member
  rw [scaled.amounts_eq] at held
  by_contra absent
  exact held (CoinOf.amounts_of_absent _ fun x inDone same => absent (List.mem_map.mpr ⟨x, inDone, same⟩))

/-- One turn keeps what the loop has built, when `op` returns what `f` gives. -/
theorem ScaledFrom.step (agrees : ∀ a r, op a = .ok r → r = f a) {done res next : DecCoins} {coin : DecCoin}
    (scaled : ScaledFrom f done res) (stepped : scaleStep op res coin = .ok next) :
    ScaledFrom f (done ++ [coin]) next := by
  obtain ⟨amount, computed, added⟩ := bind_eq_ok.mp stepped
  cases agrees _ _ computed
  -- the coin adds its result at its own denom and nothing elsewhere
  have atDenom : ∀ denom, CoinOf.amounts (fun a => (f a).i) (done ++ [coin]) denom =
      CoinOf.amounts Dec.i res denom + CoinOf.amounts Dec.i [⟨coin.denom, f coin.amount⟩] denom := by
    intro denom
    rw [CoinOf.amounts_append, scaled.amounts_eq]
    simp
  dsimp only at added
  split_ifs at added with nonzero
  · rw [add, safeAdd] at added
    have sum := CoinOf.safeAdd_isPointwiseSum Dec.i Dec.isZero DecCoin.add (fun _ => Dec.isZero_eq_true)
      (fun a b r added => DecCoin.add_eq_ok added) scaled.ascending (List.pairwise_singleton _ _) added
    exact ⟨sum.ascending, sum.nonzero, fun denom => by rw [sum.amounts_eq, atDenom]⟩
  · cases added
    have zero : (f coin.amount).i = 0 := Dec.isZero_eq_true (by simpa using nonzero)
    refine ⟨scaled.ascending, scaled.nonzero, fun denom => ?_⟩
    rw [atDenom]
    simp [zero]

/-- A turn at a denom the loop has not done yet returns once `op` does: `Add`
meets no coin of that denom. -/
theorem scaleStep_ok_of_fresh {done res : DecCoins} {coin : DecCoin} (scaled : ScaledFrom f done res)
    (fresh : coin.denom ∉ done.map (·.denom)) {r : Dec} (computed : op coin.amount = .ok r) :
    ∃ next, scaleStep op res coin = .ok next := by
  rw [scaleStep, computed, ok_bind]
  dsimp only
  split_ifs
  · rw [add, safeAdd, CoinOf.safeAdd]
    apply CoinOf.safeAddLoop_ok
    intro a member b product same
    rw [List.mem_singleton.mp product] at same
    exact absurd (same ▸ scaled.denom_mem f member) fresh
  · exact ⟨res, rfl⟩

variable {op f}

/-- What the loop returns, whenever it returns and `op` returns what `f` gives:
a set sorted strictly by denom, with no zero coin, holding at each denom the
sum of the results of that denom's coins, in whatever order they came. -/
theorem scaleLoop_spec (agrees : ∀ a r, op a = .ok r → r = f a) {coins res : DecCoins}
    (scaled : scaleLoop op coins = .ok res) : ScaledFrom f coins res :=
  foldlM_invariant (scaleStep op) (ScaledFrom f) coins (ScaledFrom.nil f)
    (fun _ _ _ _ _ _ kept stepped => kept.step op f agrees stepped) scaled

/-- The loop over coins of distinct denoms returns when `op` returns on every amount. -/
theorem scaleLoop_ok (agrees : ∀ a r, op a = .ok r → r = f a) {coins : DecCoins}
    (distinct : (coins.map (·.denom)).Nodup) (total : ∀ c ∈ coins, ∃ r, op c.amount = .ok r) :
    ∃ res, scaleLoop op coins = .ok res ∧ ScaledFrom f coins res := by
  apply foldlM_ok_of_progress (scaleStep op) (ScaledFrom f) coins (ScaledFrom.nil f)
  intro done coin rest acc split kept
  have fresh : coin.denom ∉ done.map (·.denom) := by
    rw [split, List.map_append, List.map_cons] at distinct
    exact fun inDone => (List.nodup_append.mp distinct).2.2 _ inDone _ List.mem_cons_self rfl
  obtain ⟨r, computed⟩ := total coin (by rw [split]; simp)
  obtain ⟨next, stepped⟩ := scaleStep_ok_of_fresh op f kept fresh computed
  exact ⟨next, stepped, kept.step op f agrees stepped⟩

/-- `Dec.Mul` and `Dec.MulTruncate` return the chopped product whenever they return. -/
theorem mulWith_agrees (chop : Int → Int) (d : Dec) :
    ∀ a r, Dec.mulWith chop a d = .ok r → r = ⟨chop (a.i * d.i)⟩ :=
  fun a r computed => Dec.eq_of_i ((Dec.mulWith_eq_ok chop a d r).mp computed).1

/-- `MulDec` of any list of decimal coins, in any order and with any denom
repeated: whenever it returns, the set it returns is sorted strictly by denom,
has no zero coin and holds at each denom the sum of the rounded products of
that denom's amounts; on distinct denoms it returns whenever each product fits. -/
theorem mulDec_sorts_and_merges (coins : DecCoins) (d : Dec) :
    (∀ res, mulDec coins d = .ok res →
      ScaledFrom (fun a => ⟨Dec.chopPrecisionAndRound (a.i * d.i)⟩) coins res) ∧
    ((coins.map (·.denom)).Nodup →
      (∀ c ∈ coins, Big.bitLen (Dec.chopPrecisionAndRound (c.amount.i * d.i)) ≤ 255 + Dec.decimalPrecisionBits) →
      ∃ res, mulDec coins d = .ok res) := by
  have agrees := mulWith_agrees Dec.chopPrecisionAndRound d
  refine ⟨fun res returned => scaleLoop_spec agrees returned, fun distinct fits => ?_⟩
  obtain ⟨res, returned, -⟩ := scaleLoop_ok agrees distinct fun c member =>
    ⟨_, (Dec.mulWith_eq_ok _ c.amount d ⟨_⟩).mpr ⟨rfl, fits c member⟩⟩
  exact ⟨res, returned⟩

/-- Two coins out of order, scaled by one half, return. -/
theorem mulDec_sorts_and_merges_half :
    ∃ res, mulDec [⟨"bbb", ⟨3 * 10 ^ 18⟩⟩, ⟨"aaa", ⟨2 * 10 ^ 18⟩⟩] ⟨5 * 10 ^ 17⟩ = .ok res ∧
      ScaledFrom (fun a => ⟨Dec.chopPrecisionAndRound (a.i * (5 * 10 ^ 17))⟩)
        [⟨"bbb", ⟨3 * 10 ^ 18⟩⟩, ⟨"aaa", ⟨2 * 10 ^ 18⟩⟩] res := by
  have scaled := mulDec_sorts_and_merges [⟨"bbb", ⟨3 * 10 ^ 18⟩⟩, ⟨"aaa", ⟨2 * 10 ^ 18⟩⟩] ⟨5 * 10 ^ 17⟩
  have fits : ∀ c ∈ ([⟨"bbb", ⟨3 * 10 ^ 18⟩⟩, ⟨"aaa", ⟨2 * 10 ^ 18⟩⟩] : DecCoins),
      Big.bitLen (Dec.chopPrecisionAndRound (c.amount.i * (5 * 10 ^ 17))) ≤ 255 + Dec.decimalPrecisionBits := by
    intro c member
    simp only [List.mem_cons, List.not_mem_nil, or_false] at member
    rcases member with rfl | rfl <;> exact (Big.bitLen_le_iff _ _).mpr (by decide)
  obtain ⟨res, returned⟩ := scaled.2 (by decide) fits
  exact ⟨res, returned, scaled.1 res returned⟩

end Scale

/-! ## Intersect -/

section Intersect

variable {coins coinsB : DecCoins}

/-- The coin `Intersect` builds from `coin`, with what `coinsB` holds of its denom. -/
def minCoin (coinsB : DecCoins) (coin : DecCoin) : DecCoin :=
  ⟨coin.denom, Dec.minDec coin.amount ⟨CoinOf.amounts Dec.i coinsB coin.denom⟩⟩

theorem amountOf_eq_amounts (ascending : coins.Pairwise (·.denom < ·.denom)) {denom : String}
    (accepted : validateDenom denom = .ok ()) : amountOf coins denom = .ok ⟨CoinOf.amounts Dec.i coins denom⟩ := by
  rw [amountOf, CoinOf.amountOf_eq_lookup ⟨0⟩ accepted coins ascending,
    ← CoinOf.val_lookup Dec.i ⟨0⟩ rfl ascending]

theorem intersect_eq (ascendingB : coinsB.Pairwise (·.denom < ·.denom))
    (accepted : ∀ c ∈ coins, validateDenom c.denom = .ok ()) :
    intersect coins coinsB = .ok (removeZeroDecCoins (coins.map (minCoin coinsB))) := by
  have mapped := mapM_eq_ok_map (fun coin => do
      let amount ← amountOf coinsB coin.denom
      pure (⟨coin.denom, Dec.minDec coin.amount amount⟩ : DecCoin)) (minCoin coinsB) coins
    fun c member => by rw [amountOf_eq_amounts ascendingB (accepted c member), ok_bind]; rfl
  rw [intersect, mapped, ok_bind]
  rfl

theorem amounts_nonneg_of_isValid (nonAscii : Char → Char) (valid : isValid nonAscii coins = true) (denom : String) :
    0 ≤ CoinOf.amounts Dec.i coins denom := by
  rw [isValid, CoinOf.isValid_iff] at valid
  apply CoinOf.amounts_nonneg Dec.i
  intro c member
  simpa [Dec.isPositive] using valid.positive c member

/-- Against a set of positive amounts, the coins `Intersect` builds from a
sorted set hold the pointwise minimum. -/
theorem amounts_map_minCoin (ascending : coins.Pairwise (·.denom < ·.denom))
    (nonnegB : ∀ denom, 0 ≤ CoinOf.amounts Dec.i coinsB denom) (denom : String) :
    CoinOf.amounts Dec.i (coins.map (minCoin coinsB)) denom =
      min (CoinOf.amounts Dec.i coins denom) (CoinOf.amounts Dec.i coinsB denom) := by
  have ascendingMin : (coins.map (minCoin coinsB)).Pairwise (·.denom < ·.denom) :=
    List.pairwise_map.mpr ascending
  by_cases present : ∃ c ∈ coins, c.denom = denom
  · obtain ⟨c, member, rfl⟩ := present
    have atMin : CoinOf.amounts Dec.i (coins.map (minCoin coinsB)) c.denom = (minCoin coinsB c).amount.i :=
      CoinOf.amounts_of_mem Dec.i ascendingMin (List.mem_map_of_mem member)
    rw [atMin, CoinOf.amounts_of_mem Dec.i ascending member, minCoin, Dec.minDec_i]
  · -- the denom is in neither the first set nor the coins built from it
    have absent : ∀ c ∈ coins, c.denom ≠ denom := fun c member same => present ⟨c, member, same⟩
    have absentMin : ∀ c ∈ coins.map (minCoin coinsB), c.denom ≠ denom := by
      intro c member
      obtain ⟨x, inCoins, rfl⟩ := List.mem_map.mp member
      exact absent x inCoins
    rw [CoinOf.amounts_of_absent Dec.i absentMin, CoinOf.amounts_of_absent Dec.i absent]
    exact (min_eq_left (nonnegB denom)).symm

/-- The coins `Intersect` keeps from a valid set form a valid set, when each of
the first set's denoms passes `ValidateDenom`. -/
theorem isValid_removeZero_map_minCoin (nonAscii : Char → Char) (valid : isValid nonAscii coins = true)
    (validB : isValid nonAscii coinsB = true) (accepted : ∀ c ∈ coins, validateDenom c.denom = .ok ()) :
    isValid nonAscii (removeZeroDecCoins (coins.map (minCoin coinsB))) = true := by
  have nonnegB := amounts_nonneg_of_isValid nonAscii validB
  rw [isValid, CoinOf.isValid_iff] at valid
  rw [isValid, CoinOf.isValid_iff]
  -- every coin kept is built from a coin of the first set, with its denom
  have origin : ∀ c ∈ removeZeroDecCoins (coins.map (minCoin coinsB)),
      ∃ x ∈ coins, c = minCoin coinsB x ∧ Dec.isZero c.amount = false := by
    intro c member
    obtain ⟨built, kept⟩ := List.mem_filter.mp member
    obtain ⟨x, inCoins, rfl⟩ := List.mem_map.mp built
    exact ⟨x, inCoins, rfl, by simpa using kept⟩
  have ascendingMin : (coins.map (minCoin coinsB)).Pairwise (·.denom < ·.denom) :=
    List.pairwise_map.mpr valid.ascending
  have kept : (removeZeroDecCoins (coins.map (minCoin coinsB))).Sublist (coins.map (minCoin coinsB)) :=
    List.filter_sublist
  refine ⟨ascendingMin.filter _, fun c member => ?_, fun c first => ?_, fun c later => ?_⟩
  · obtain ⟨x, inCoins, rfl, nonzero⟩ := origin c member
    have positive : 0 < x.amount.i := by simpa [Dec.isPositive] using valid.positive x inCoins
    have kept : (minCoin coinsB x).amount.i ≠ 0 := by simpa [Dec.isZero] using nonzero
    have atLeast : 0 ≤ (minCoin coinsB x).amount.i := by
      rw [minCoin, Dec.minDec_i]
      exact le_min positive.le (nonnegB x.denom)
    simpa [Dec.isPositive] using lt_of_le_of_ne atLeast kept.symm
  · obtain ⟨x, inCoins, rfl, -⟩ := origin c (List.mem_of_mem_head? first)
    exact accepted x inCoins
  · -- a later coin kept comes from a later coin of the first set
    have inTail := kept.tail.subset later
    rw [← List.map_tail] at inTail
    obtain ⟨x, inCoinsTail, rfl⟩ := List.mem_map.mp inTail
    exact valid.lowerCase x inCoinsTail

/-- `Intersect` of valid sets, when each denom of the first passes
`ValidateDenom`, returns a valid set holding at each denom the smaller of what
the two sets hold. -/
theorem intersect_spec (nonAscii : Char → Char) (valid : isValid nonAscii coins = true)
    (validB : isValid nonAscii coinsB = true) (accepted : ∀ c ∈ coins, validateDenom c.denom = .ok ()) :
    ∃ res, intersect coins coinsB = .ok res ∧ isValid nonAscii res = true ∧
      ∀ denom, CoinOf.amounts Dec.i res denom =
        min (CoinOf.amounts Dec.i coins denom) (CoinOf.amounts Dec.i coinsB denom) := by
  have ascending := ((CoinOf.isValid_iff Dec.isPositive nonAscii coins).mp valid).ascending
  have ascendingB := ((CoinOf.isValid_iff Dec.isPositive nonAscii coinsB).mp validB).ascending
  refine ⟨_, intersect_eq ascendingB accepted, isValid_removeZero_map_minCoin nonAscii valid validB accepted,
    fun denom => ?_⟩
  rw [removeZeroDecCoins, CoinOf.amounts_removeZero Dec.i Dec.isZero (fun _ => Dec.isZero_eq_true),
    amounts_map_minCoin ascending (amounts_nonneg_of_isValid nonAscii validB)]

/-- `{2aaa, 1bbb}.Intersect({1aaa, 3ccc})`. -/
theorem intersect_spec_aaa :
    isValid id [⟨"aaa", ⟨2⟩⟩, ⟨"bbb", ⟨1⟩⟩] = true ∧ isValid id [⟨"aaa", ⟨1⟩⟩, ⟨"ccc", ⟨3⟩⟩] = true ∧
      (∀ c ∈ ([⟨"aaa", ⟨2⟩⟩, ⟨"bbb", ⟨1⟩⟩] : DecCoins), validateDenom c.denom = .ok ()) ∧
      ∃ res, intersect [⟨"aaa", ⟨2⟩⟩, ⟨"bbb", ⟨1⟩⟩] [⟨"aaa", ⟨1⟩⟩, ⟨"ccc", ⟨3⟩⟩] = .ok res ∧
        isValid id res = true ∧ ∀ denom, CoinOf.amounts Dec.i res denom =
          min (CoinOf.amounts Dec.i [⟨"aaa", ⟨2⟩⟩, ⟨"bbb", ⟨1⟩⟩] denom)
            (CoinOf.amounts Dec.i [⟨"aaa", ⟨1⟩⟩, ⟨"ccc", ⟨3⟩⟩] denom) := by
  have accepted : ∀ c ∈ ([⟨"aaa", ⟨2⟩⟩, ⟨"bbb", ⟨1⟩⟩] : DecCoins), validateDenom c.denom = .ok () := by
    intro c member
    simp only [List.mem_cons, List.not_mem_nil, or_false] at member
    rcases member with rfl | rfl <;> decide
  exact ⟨by decide, by decide, accepted, intersect_spec id (by decide) (by decide) accepted⟩

end Intersect

end DecCoins

end CoreSdk.Types
