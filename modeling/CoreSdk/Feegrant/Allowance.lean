import CoreSdk.Types.CoinArith
import CoreSdk.Types.CoinText
import CoreSdk.Types.Errors

/-!
# Fee allowances

`BasicAllowance` and `PeriodicAllowance` (`feegrant/`): their `Accept`,
`tryResetPeriod` and `ValidateBasic`, and the keeper's use of `Accept` as
`FeeAllowanceI` describes it. An error rejects the fee and the stored allowance
stays as it was, `remove` deletes the allowance, and otherwise the updated
allowance is stored.

A spend limit is a slice that may be nil, and nil means no limit. `SafeSub`
builds its result by appending to a nil slice, so a limit spent to nothing
becomes nil; `Accept` then returns `remove`, and the keeper never stores it.

Along every run of the keeper from a valid allowance with fees whose amounts
fit in an `Int`, nothing panics and the fees paid never exceed the initial spend
limit in any denom; `remove` comes exactly when the allowance has expired or the
fee takes all that is left.

`tryResetPeriod` sets the next reset time to `PeriodReset + Period` unless the
block time is past that. At the block time `PeriodReset + Period`, and so at
every reset when `Period` is zero, the next reset time is the block time itself,
and a second `Accept` in the same block refills again. The refill is one of the
two limits as a whole, not their minimum denom by denom.
-/

namespace CoreSdk.Feegrant

open Go Go.Big CoreSdk.Types

set_option autoImplicit false

/-- A `time.Time`, as nanoseconds from the Unix epoch. -/
abbrev Time := Int

/-- A `time.Duration`, in nanoseconds. -/
abbrev Duration := Int

/-- `Time.Unix`: whole seconds, rounded down. -/
def unix (t : Time) : Int := t / 10 ^ 9

/-- `Expiration != nil && Expiration.Before(blockTime)`, which is also
`blockTime.After(*Expiration)`. -/
def isExpired (expiration : Option Time) (blockTime : Time) : Bool :=
  match expiration with
  | some expiration => decide (expiration < blockTime)
  | none => false

/-- The slice `safeAdd` returns: nil when nothing was appended. -/
def sliceOf (coins : Coins) : Option Coins := if coins = [] then none else some coins

/-- `BasicAllowance`, a nil `SpendLimit` or `Expiration` being `none`. -/
structure BasicAllowance where
  spendLimit : Option Coins
  expiration : Option Time
  deriving DecidableEq, Repr

/-- `PeriodicAllowance`. -/
structure PeriodicAllowance where
  basic : BasicAllowance
  period : Duration
  periodSpendLimit : Coins
  periodCanSpend : Coins
  periodReset : Time
  deriving DecidableEq, Repr

namespace BasicAllowance

/-- `BasicAllowance.Accept`: the allowance as it is left, `remove`, and the error. -/
def accept (a : BasicAllowance) (blockTime : Time) (fee : Coins) :
    Result (BasicAllowance × Bool × Option GoError) :=
  if isExpired a.expiration blockTime then .ok (a, true, some (.other "basic allowance"))
  else
    match a.spendLimit with
    | some spendLimit => do
        let (left, invalid) ← Coins.safeSub spendLimit fee
        if invalid then return (a, false, some (.other "basic allowance"))
        return ({ a with spendLimit := sliceOf left }, Coins.isZero left, none)
    | none => .ok (a, false, none)

/-- `BasicAllowance.ValidateBasic`, `none` for a nil error. -/
def validateBasic (nonAscii : Char → Char) (a : BasicAllowance) : Option GoError :=
  let limitError : Option GoError :=
    match a.spendLimit with
    | some spendLimit =>
        if !Coins.isValid nonAscii spendLimit then some (.other "send amount is invalid")
        else if !Coins.isAllPositive spendLimit then some (.other "spend limit must be positive")
        else none
    | none => none
  match limitError with
  | some err => some err
  | none =>
      match a.expiration with
      | some expiration =>
          if unix expiration < 0 then some (.other "expiration time cannot be negative") else none
      | none => none

end BasicAllowance

namespace PeriodicAllowance

/-- `PeriodicAllowance.tryResetPeriod`. -/
def tryResetPeriod (m : PeriodicAllowance) (blockTime : Time) : Result PeriodicAllowance := do
  if blockTime < m.periodReset then return m
  -- a nil limit holds no coins for `SafeSub` and `Empty`
  let spendLimit := m.basic.spendLimit.getD []
  -- set PeriodCanSpend to the lesser of Basic.SpendLimit and PeriodSpendLimit
  let (_, isNeg) ← Coins.safeSub spendLimit m.periodSpendLimit
  let periodCanSpend := if isNeg && !Coins.empty spendLimit then spendLimit else m.periodSpendLimit
  -- If we are within the period, step from expiration; if we are more than one period out, reset
  -- is one period from this time
  let periodReset := m.periodReset + m.period
  let periodReset := if periodReset < blockTime then blockTime + m.period else periodReset
  return { m with periodCanSpend := periodCanSpend, periodReset := periodReset }

/-- `PeriodicAllowance.Accept`. -/
def accept (m : PeriodicAllowance) (blockTime : Time) (fee : Coins) :
    Result (PeriodicAllowance × Bool × Option GoError) := do
  if isExpired m.basic.expiration blockTime then
    return (m, true, some (.sdk (wrap (.other "fee allowance expired : absolute limit"))))
  let m ← m.tryResetPeriod blockTime
  -- deduct from both the current period and the max amount
  let (periodCanSpend, isNeg) ← Coins.safeSub m.periodCanSpend fee
  let m := { m with periodCanSpend := periodCanSpend }
  if isNeg then return (m, false, some (.sdk (wrap (.other "fee limit exceeded : period limit"))))
  match m.basic.spendLimit with
  | some spendLimit =>
      let (left, isNeg) ← Coins.safeSub spendLimit fee
      let m := { m with basic := { m.basic with spendLimit := sliceOf left } }
      if isNeg then return (m, false, some (.sdk (wrap (.other "fee limit exceeded : absolute limit"))))
      return (m, Coins.isZero left, none)
  | none => return (m, false, none)

/-- `PeriodicAllowance.ValidateBasic`, `none` for a nil error. `DenomsSubsetOf`
can panic in `AmountOf`. -/
def validateBasic (nonAscii : Char → Char) (m : PeriodicAllowance) : Result (Option GoError) := do
  if let some err := m.basic.validateBasic nonAscii then return some err
  if !Coins.isValid nonAscii m.periodSpendLimit then
    return some (.sdk (wrap (.other ("invalid coins , spend amount is invalid: " ++ Coins.string m.periodSpendLimit))))
  if !Coins.isAllPositive m.periodSpendLimit then
    return some (.sdk (wrap (.other "invalid coins : spend limit must be positive")))
  if !Coins.isValid nonAscii m.periodCanSpend then
    return some (.sdk (wrap (.other ("invalid coins , can spend amount is invalid: " ++ Coins.string m.periodCanSpend))))
  -- We allow 0 for CanSpend
  if Coins.isAnyNegative m.periodCanSpend then
    return some (.sdk (wrap (.other "invalid coins : can spend must not be negative")))
  -- ensure PeriodSpendLimit can be subtracted from total (same coin types)
  if let some spendLimit := m.basic.spendLimit then
    let subset ← Coins.denomsSubsetOf m.periodSpendLimit spendLimit
    if !subset then
      return some (.sdk (wrap (.other "invalid coins : period spend limit has different currency than basic spend limit")))
  -- check times: `Period.Seconds() < 0`
  if m.period < 0 then return some (.sdk (wrap (.other "invalid duration : negative clock step")))
  return none

end PeriodicAllowance

/-- One use of a grant by the keeper, as `FeeAllowanceI` describes it: the grant
stored after the call (`none` once deleted) and whether the fee is paid. -/
def useGrantedFees {A : Type} (accept : A → Time → Coins → Result (A × Bool × Option GoError)) (grant : A)
    (blockTime : Time) (fee : Coins) : Result (Option A × Bool) := do
  let (updated, remove, err) ← accept grant blockTime fee
  if remove then return (none, err.isNone)
  if err.isSome then return (some grant, false)
  return (some updated, true)

/-- The keeper over a run of calls, each a block time and a fee, until the grant is
deleted: the grant left and the fees paid. -/
def runGrant {A : Type} (accept : A → Time → Coins → Result (A × Bool × Option GoError)) :
    Option A → List (Time × Coins) → Result (Option A × List Coins)
  | none, _ => .ok (none, [])
  | some grant, [] => .ok (some grant, [])
  | some grant, (blockTime, fee) :: calls => do
      let (stored, paid) ← useGrantedFees accept grant blockTime fee
      let (final, fees) ← runGrant accept stored calls
      return (final, (if paid then [fee] else []) ++ fees)

/-! ## Coin sets within the bounds of `Int` -/

/-- A coin set as the chain holds one: sorted strictly by denom, with every
amount positive and within the 255 bits of `Int`. -/
structure Bounded (coins : Coins) : Prop where
  ascending : coins.Pairwise (·.denom < ·.denom)
  positive : ∀ c ∈ coins, 0 < c.amount
  fits : ∀ c ∈ coins, bitLen c.amount ≤ SdkInt.maxBitLen

theorem Bounded.nil : Bounded [] := ⟨List.Pairwise.nil, by simp, by simp⟩

theorem Bounded.of_isValid (nonAscii : Char → Char) {coins : Coins} (valid : Coins.isValid nonAscii coins = true)
    (fits : ∀ c ∈ coins, bitLen c.amount ≤ SdkInt.maxBitLen) : Bounded coins := by
  rw [Coins.isValid, CoinOf.isValid_iff] at valid
  exact ⟨valid.ascending, fun c member => by simpa [SdkInt.isPositive] using valid.positive c member, fits⟩

/-- What a bounded set holds of a denom is not negative, and fits. -/
theorem Bounded.amounts_bounds {coins : Coins} (bounded : Bounded coins) (denom : String) :
    0 ≤ CoinOf.amounts id coins denom ∧ bitLen (CoinOf.amounts id coins denom) ≤ SdkInt.maxBitLen := by
  by_cases present : ∃ c ∈ coins, c.denom = denom
  · obtain ⟨c, member, rfl⟩ := present
    rw [CoinOf.amounts_of_mem id bounded.ascending member]
    exact ⟨(bounded.positive c member).le, bounded.fits c member⟩
  · rw [CoinOf.amounts_of_absent id fun c member same => present ⟨c, member, same⟩]
    simp [bitLen]

/-- `SafeSub` of bounded sets returns, with their pointwise difference. -/
theorem safeSub_of_bounded {coins coinsB : Coins} (bounded : Bounded coins) (boundedB : Bounded coinsB) :
    ∃ diff hasNeg, Coins.safeSub coins coinsB = .ok (diff, hasNeg) ∧
      CoinOf.IsPointwiseDiff SdkInt.isZero id coins coinsB diff hasNeg := by
  obtain ⟨diff, hasNeg, subtracted, pointwise, -⟩ :=
    CoinOf.safeSub_of_total SdkInt.isZero SdkInt.neg SdkInt.isNegative Coin.add id
      (fun _ => SdkInt.isZero_eq_true) (fun _ => rfl) (fun x => by simp [SdkInt.isNegative]) Coin.add_spec
      bounded.ascending boundedB.ascending fun a inA b inB same =>
        ⟨_, Coin.add_of_fits a _ same (bitLen_sub_le (bounded.positive a inA) (boundedB.positive b inB)
          (bounded.fits a inA) (boundedB.fits b inB))⟩
  exact ⟨diff, hasNeg, subtracted, pointwise⟩

section Difference

variable {coins coinsB diff : Coins} (pointwise : CoinOf.IsPointwiseDiff SdkInt.isZero id coins coinsB diff false)
include pointwise

/-- With no negative amount, the second set is within the first. -/
theorem within_of_diff (denom : String) :
    CoinOf.amounts id coinsB denom ≤ CoinOf.amounts id coins denom := by
  by_contra above
  have flagged := pointwise.flag.mpr ⟨denom, by omega⟩
  exact absurd flagged (by decide)

/-- Each coin of the difference holds what the two sets hold of its denom, less. -/
theorem amount_of_mem_diff {c : Coin} (member : c ∈ diff) :
    c.amount = CoinOf.amounts id coins c.denom - CoinOf.amounts id coinsB c.denom := by
  rw [← pointwise.amounts_eq, CoinOf.amounts_of_mem id pointwise.ascending member]
  rfl

theorem amount_ne_zero_of_mem_diff {c : Coin} (member : c ∈ diff) : c.amount ≠ 0 := fun zero => by
  have flag := pointwise.nonzero c member
  rw [zero] at flag
  exact absurd flag (by decide)

/-- A coin of the difference is positive and at most what the first set holds. -/
theorem amount_bounds_of_mem_diff (boundedB : Bounded coinsB) {c : Coin} (member : c ∈ diff) :
    0 < c.amount ∧ c.amount ≤ CoinOf.amounts id coins c.denom := by
  have amount := amount_of_mem_diff pointwise member
  have within := within_of_diff pointwise c.denom
  have nonzero := amount_ne_zero_of_mem_diff pointwise member
  have lowerB := (boundedB.amounts_bounds c.denom).1
  omega

/-- A difference with nothing negative is bounded again. -/
theorem Bounded.of_diff (bounded : Bounded coins) (boundedB : Bounded coinsB) : Bounded diff := by
  refine ⟨pointwise.ascending, fun c member => (amount_bounds_of_mem_diff pointwise boundedB member).1,
    fun c member => ?_⟩
  obtain ⟨positive, below⟩ := amount_bounds_of_mem_diff pointwise boundedB member
  obtain ⟨lower, fits⟩ := bounded.amounts_bounds c.denom
  rw [bitLen_le_iff] at fits ⊢
  omega

/-- The difference is zero exactly when the two sets hold the same. -/
theorem isZero_diff_iff : Coins.isZero diff = true ↔ ∀ denom, CoinOf.amounts id coins denom = CoinOf.amounts id coinsB denom := by
  rw [Coins.isZero_iff_eq_nil pointwise.nonzero]
  constructor
  · rintro rfl denom
    have taken := pointwise.amounts_eq denom
    simp only [CoinOf.amounts_nil] at taken
    omega
  · intro same
    cases diff with
    | nil => rfl
    | cons c rest =>
      have amount := amount_of_mem_diff pointwise List.mem_cons_self
      rw [same c.denom, sub_self] at amount
      exact absurd amount (amount_ne_zero_of_mem_diff pointwise List.mem_cons_self)

end Difference

/-- A second set within the first leaves the flag of `SafeSub` unset. -/
theorem flag_false_of_within {coins coinsB diff : Coins} {hasNeg : Bool}
    (pointwise : CoinOf.IsPointwiseDiff SdkInt.isZero id coins coinsB diff hasNeg)
    (within : ∀ denom, CoinOf.amounts id coinsB denom ≤ CoinOf.amounts id coins denom) : hasNeg = false := by
  cases hasNeg with
  | false => rfl
  | true =>
    obtain ⟨denom, below⟩ := pointwise.flag.mp rfl
    exact absurd (within denom) (not_le.mpr below)

theorem Bounded.of_isValid_of_lt (nonAscii : Char → Char) {coins : Coins} (valid : Coins.isValid nonAscii coins = true)
    (small : ∀ c ∈ coins, c.amount.natAbs < 2 ^ SdkInt.maxBitLen) : Bounded coins :=
  Bounded.of_isValid nonAscii valid fun c member => (bitLen_le_iff _ _).mpr (small c member)

/-! ## The keeper's runs -/

/-- The fees of a run, summed denom by denom. -/
def spentTotal (fees : List Coins) (denom : String) : Int :=
  (fees.map fun fee => CoinOf.amounts id fee denom).sum

section Keeper

variable {A : Type} (accept : A → Time → Coins → Result (A × Bool × Option GoError))

theorem useGrantedFees_of_accept {grant updated : A} {blockTime : Time} {fee : Coins} {remove : Bool}
    {err : Option GoError} (accepted : accept grant blockTime fee = .ok (updated, remove, err)) :
    useGrantedFees accept grant blockTime fee =
      .ok (if remove then (none, err.isNone) else if err.isSome then (some grant, false) else (some updated, true)) := by
  rw [useGrantedFees, accepted, ok_bind]
  cases remove <;> cases err <;> rfl

variable (Inv : A → Prop) (limit : A → Coins)

/-- What one `Accept` may do to a grant kept by `Inv` with the spend limit
`limit`: a fee taken without an error is within the limit, and a grant that is
kept after it satisfies `Inv` again, with the fee taken from its limit. -/
structure Spends (a : A) (fee : Coins) (r : A × Bool × Option GoError) : Prop where
  within : r.2.2 = none → ∀ denom, CoinOf.amounts id fee denom ≤ CoinOf.amounts id (limit a) denom
  kept : r.2.2 = none → r.2.1 = false → Inv r.1 ∧
    ∀ denom, CoinOf.amounts id (limit r.1) denom = CoinOf.amounts id (limit a) denom - CoinOf.amounts id fee denom

/-- A rejected fee, or a deleted grant, spends nothing that `Spends` asks about. -/
theorem spends_of_error {a : A} {fee : Coins} {r : A × Bool × Option GoError} (failed : r.2.2 ≠ none) :
    Spends Inv limit a fee r :=
  ⟨fun paid => absurd paid failed, fun paid => absurd paid failed⟩

variable (step : ∀ a blockTime fee, Inv a → Bounded fee → ∃ r, accept a blockTime fee = .ok r ∧ Spends Inv limit a fee r)
  (nonneg : ∀ a, Inv a → ∀ denom, 0 ≤ CoinOf.amounts id (limit a) denom)

include step nonneg in
/-- From a grant kept by `Inv`, a run over bounded fees returns, and the fees it
pays stay within the grant's limit in every denom. -/
theorem runGrant_spent_le (calls : List (Time × Coins)) : ∀ a, Inv a → (∀ call ∈ calls, Bounded call.2) →
    ∃ final fees, runGrant accept (some a) calls = .ok (final, fees) ∧
      ∀ denom, spentTotal fees denom ≤ CoinOf.amounts id (limit a) denom := by
  induction calls with
  | nil =>
    intro a kept _
    exact ⟨some a, [], rfl, fun denom => by simpa [spentTotal] using nonneg a kept denom⟩
  | cons call calls induction =>
    intro a kept bounded
    obtain ⟨blockTime, fee⟩ := call
    have rest : ∀ call ∈ calls, Bounded call.2 := fun call member => bounded call (List.mem_cons_of_mem _ member)
    obtain ⟨⟨updated, remove, err⟩, accepted, spends⟩ := step a blockTime fee kept (bounded _ List.mem_cons_self)
    have used := useGrantedFees_of_accept accept accepted
    -- the keeper deletes the grant, keeps it as it was, or stores what `Accept` left
    cases remove with
    | true =>
      simp only [reduceIte] at used
      refine ⟨none, if err.isNone then [fee] else [], ?_, fun denom => ?_⟩
      · simp only [runGrant, used, ok_bind]
        cases err <;> rfl
      · cases err with
        | none => simpa [spentTotal] using spends.within rfl denom
        | some _ => simpa [spentTotal] using nonneg a kept denom
    | false =>
      cases err with
      | some _ =>
        simp only [Bool.false_eq_true, reduceIte, Option.isSome_some] at used
        obtain ⟨final, fees, ran, within⟩ := induction a kept rest
        refine ⟨final, fees, ?_, within⟩
        simp only [runGrant, used, ok_bind, ran]
        rfl
      | none =>
        simp only [Bool.false_eq_true, reduceIte, Option.isSome_none] at used
        obtain ⟨keptUpdated, taken⟩ := spends.kept rfl rfl
        obtain ⟨final, fees, ran, within⟩ := induction updated keptUpdated rest
        refine ⟨final, fee :: fees, ?_, fun denom => ?_⟩
        · simp only [runGrant, used, ok_bind, ran]
          rfl
        · have bound := within denom
          rw [taken] at bound
          simp only [spentTotal, List.map_cons, List.sum_cons] at bound ⊢
          omega

end Keeper

/-! ## What `Accept` spends -/

theorem sliceOf_of_ne_nil {coins : Coins} (nonempty : coins ≠ []) : sliceOf coins = some coins := if_neg nonempty

/-- What is left of a limit is not empty when it is not zero. -/
theorem ne_nil_of_isZero_eq_false {coins : Coins} (notZero : Coins.isZero coins = false) : coins ≠ [] := by
  rintro rfl
  exact absurd notZero (by decide)

/-- Whether a fee takes all that is left of a limit. -/
def Exhausts (spendLimit : Option Coins) (fee : Coins) : Prop :=
  ∃ limit, spendLimit = some limit ∧ ∀ denom, CoinOf.amounts id limit denom = CoinOf.amounts id fee denom

/-- A fee taken from a bounded limit with nothing negative: the rest, when it is
not zero, is the new limit, bounded and less the fee in every denom. -/
theorem sliceOf_taken {spendLimit fee left : Coins}
    (pointwise : CoinOf.IsPointwiseDiff SdkInt.isZero id spendLimit fee left false)
    (bounded : Bounded spendLimit) (boundedFee : Bounded fee) (notZero : Coins.isZero left = false) :
    sliceOf left = some left ∧ Bounded left ∧
      ∀ denom, CoinOf.amounts id ((sliceOf left).getD []) denom =
        CoinOf.amounts id spendLimit denom - CoinOf.amounts id fee denom := by
  have left_eq := sliceOf_of_ne_nil (ne_nil_of_isZero_eq_false notZero)
  refine ⟨left_eq, Bounded.of_diff pointwise bounded boundedFee, fun denom => ?_⟩
  rw [left_eq, Option.getD_some, pointwise.amounts_eq]

theorem exhausts_some_iff (limit fee : Coins) :
    Exhausts (some limit) fee ↔ ∀ denom, CoinOf.amounts id limit denom = CoinOf.amounts id fee denom := by
  simp [Exhausts]

namespace BasicAllowance

/-- A basic allowance whose limit is set and bounded. -/
def Limited (a : BasicAllowance) : Prop := ∃ spendLimit, a.spendLimit = some spendLimit ∧ Bounded spendLimit

theorem accept_of_expired {a : BasicAllowance} {blockTime : Time} (fee : Coins)
    (expired : isExpired a.expiration blockTime = true) :
    a.accept blockTime fee = .ok (a, true, some (.other "basic allowance")) := by
  rw [accept, if_pos expired]

theorem accept_of_limit {a : BasicAllowance} {blockTime : Time} {fee spendLimit left : Coins} {invalid : Bool}
    (live : isExpired a.expiration blockTime = false) (limited : a.spendLimit = some spendLimit)
    (subtracted : Coins.safeSub spendLimit fee = .ok (left, invalid)) :
    a.accept blockTime fee = .ok (if invalid then (a, false, some (.other "basic allowance"))
      else ({ a with spendLimit := sliceOf left }, Coins.isZero left, none)) := by
  rw [accept, if_neg (by simp [live]), limited]
  simp only [subtracted, ok_bind]
  cases invalid <;> rfl

/-- One `Accept` on a limited allowance and a bounded fee: it returns, and a fee
it takes comes out of the limit. -/
theorem accept_spends (a : BasicAllowance) (blockTime : Time) (fee : Coins) (limited : Limited a)
    (boundedFee : Bounded fee) :
    ∃ r, a.accept blockTime fee = .ok r ∧ Spends Limited (fun a => a.spendLimit.getD []) a fee r := by
  obtain ⟨spendLimit, limit, bounded⟩ := limited
  cases live : isExpired a.expiration blockTime with
  | true => exact ⟨_, accept_of_expired fee live, spends_of_error _ _ (by simp)⟩
  | false =>
    obtain ⟨left, invalid, subtracted, pointwise⟩ := safeSub_of_bounded bounded boundedFee
    refine ⟨_, accept_of_limit live limit subtracted, ?_⟩
    cases invalid with
    | true => exact spends_of_error _ _ (by simp)
    | false =>
      refine ⟨fun _ denom => by simpa [limit] using within_of_diff pointwise denom, fun _ notZero => ?_⟩
      obtain ⟨left_eq, boundedLeft, taken⟩ := sliceOf_taken pointwise bounded boundedFee notZero
      exact ⟨⟨left, left_eq, boundedLeft⟩, by simpa [limit] using taken⟩

/-- `Accept` returns `remove` exactly when the allowance has expired or the fee
takes all that is left of its limit. -/
theorem accept_remove_iff (a : BasicAllowance) (blockTime : Time) (fee : Coins)
    (r : BasicAllowance × Bool × Option GoError) (bounded : Bounded (a.spendLimit.getD []))
    (boundedFee : Bounded fee) (accepted : a.accept blockTime fee = .ok r) :
    r.2.1 = true ↔ isExpired a.expiration blockTime = true ∨ (r.2.2 = none ∧ Exhausts a.spendLimit fee) := by
  cases live : isExpired a.expiration blockTime with
  | true =>
    rw [accept_of_expired fee live, Except.ok.injEq] at accepted
    simp [← accepted]
  | false =>
    cases limit : a.spendLimit with
    | none =>
      rw [accept, if_neg (by simp [live]), limit, Except.ok.injEq] at accepted
      simp [← accepted, Exhausts]
    | some spendLimit =>
      rw [limit] at bounded
      obtain ⟨left, invalid, subtracted, pointwise⟩ := safeSub_of_bounded bounded boundedFee
      rw [accept_of_limit live limit subtracted, Except.ok.injEq] at accepted
      cases invalid with
      | true => simp [← accepted]
      | false => simp [← accepted, exhausts_some_iff, isZero_diff_iff pointwise]

theorem limit_of_validateBasic {nonAscii : Char → Char} {a : BasicAllowance} {spendLimit : Coins}
    (valid : a.validateBasic nonAscii = none) (limit : a.spendLimit = some spendLimit) :
    Coins.isValid nonAscii spendLimit = true := by
  by_contra refused
  rw [Bool.not_eq_true] at refused
  simp [validateBasic, limit, refused] at valid

end BasicAllowance

namespace PeriodicAllowance

/-- A periodic allowance whose limit is set and whose coin sets are all bounded. -/
def Limited (m : PeriodicAllowance) : Prop :=
  BasicAllowance.Limited m.basic ∧ Bounded m.periodSpendLimit ∧ Bounded m.periodCanSpend

theorem tryResetPeriod_of_before {m : PeriodicAllowance} {blockTime : Time} (before : blockTime < m.periodReset) :
    m.tryResetPeriod blockTime = .ok m := by
  rw [tryResetPeriod, if_pos before]
  rfl

theorem tryResetPeriod_of_reached {m : PeriodicAllowance} {blockTime : Time} {diff : Coins} {isNeg : Bool}
    (reached : ¬blockTime < m.periodReset)
    (subtracted : Coins.safeSub (m.basic.spendLimit.getD []) m.periodSpendLimit = .ok (diff, isNeg)) :
    m.tryResetPeriod blockTime = .ok { m with
      periodCanSpend := if isNeg && !Coins.empty (m.basic.spendLimit.getD []) then m.basic.spendLimit.getD []
        else m.periodSpendLimit
      periodReset := if m.periodReset + m.period < blockTime then blockTime + m.period
        else m.periodReset + m.period } := by
  rw [tryResetPeriod, if_neg reached]
  simp only [subtracted, ok_bind]
  rfl

/-- On bounded coin sets the reset returns, touches neither limit, and refills
with a bounded set. -/
theorem tryResetPeriod_bounded (m : PeriodicAllowance) (blockTime : Time)
    (bounded : Bounded (m.basic.spendLimit.getD [])) (boundedPeriod : Bounded m.periodSpendLimit)
    (boundedCanSpend : Bounded m.periodCanSpend) :
    ∃ m', m.tryResetPeriod blockTime = .ok m' ∧ m'.basic = m.basic ∧
      m'.periodSpendLimit = m.periodSpendLimit ∧ Bounded m'.periodCanSpend := by
  by_cases before : blockTime < m.periodReset
  · exact ⟨m, tryResetPeriod_of_before before, rfl, rfl, boundedCanSpend⟩
  · obtain ⟨diff, isNeg, subtracted, -⟩ := safeSub_of_bounded bounded boundedPeriod
    refine ⟨_, tryResetPeriod_of_reached before subtracted, rfl, rfl, ?_⟩
    dsimp only
    split_ifs
    · exact bounded
    · exact boundedPeriod

theorem accept_of_expired {m : PeriodicAllowance} {blockTime : Time} (fee : Coins)
    (expired : isExpired m.basic.expiration blockTime = true) :
    m.accept blockTime fee = .ok (m, true, some (.sdk (wrap (.other "fee allowance expired : absolute limit")))) := by
  rw [accept, if_pos expired]
  rfl

section Reset

variable {m reset : PeriodicAllowance} {blockTime : Time} {fee canSpend : Coins}
  (live : isExpired m.basic.expiration blockTime = false) (resets : m.tryResetPeriod blockTime = .ok reset)
include live resets

theorem accept_of_period_exceeded (subtracted : Coins.safeSub reset.periodCanSpend fee = .ok (canSpend, true)) :
    m.accept blockTime fee =
      .ok ({ reset with periodCanSpend := canSpend }, false,
        some (.sdk (wrap (.other "fee limit exceeded : period limit")))) := by
  rw [accept, if_neg (by simp [live])]
  simp only [resets, subtracted, ok_bind]
  rfl

theorem accept_of_unlimited (subtracted : Coins.safeSub reset.periodCanSpend fee = .ok (canSpend, false))
    (unlimited : reset.basic.spendLimit = none) :
    m.accept blockTime fee = .ok ({ reset with periodCanSpend := canSpend }, false, none) := by
  rw [accept, if_neg (by simp [live])]
  simp only [resets, subtracted, ok_bind]
  simp only [Bool.false_eq_true, reduceIte, unlimited]
  rfl

theorem accept_of_limit {spendLimit left : Coins} {isNeg : Bool}
    (subtracted : Coins.safeSub reset.periodCanSpend fee = .ok (canSpend, false))
    (limit : reset.basic.spendLimit = some spendLimit)
    (taken : Coins.safeSub spendLimit fee = .ok (left, isNeg)) :
    m.accept blockTime fee =
      .ok (if isNeg then ({ reset with periodCanSpend := canSpend, basic := { reset.basic with spendLimit := sliceOf left } },
          false, some (.sdk (wrap (.other "fee limit exceeded : absolute limit"))))
        else ({ reset with periodCanSpend := canSpend, basic := { reset.basic with spendLimit := sliceOf left } },
          Coins.isZero left, none)) := by
  rw [accept, if_neg (by simp [live])]
  simp only [resets, subtracted, ok_bind]
  simp only [Bool.false_eq_true, reduceIte, limit, taken, ok_bind]
  cases isNeg <;> rfl

end Reset

/-- One `Accept` on a limited periodic allowance and a bounded fee: it returns,
and a fee it takes comes out of the limit. -/
theorem accept_spends (m : PeriodicAllowance) (blockTime : Time) (fee : Coins) (limited : Limited m)
    (boundedFee : Bounded fee) :
    ∃ r, m.accept blockTime fee = .ok r ∧ Spends Limited (fun m => m.basic.spendLimit.getD []) m fee r := by
  obtain ⟨⟨spendLimit, limit, bounded⟩, boundedPeriod, boundedCanSpend⟩ := limited
  cases live : isExpired m.basic.expiration blockTime with
  | true => exact ⟨_, accept_of_expired fee live, spends_of_error _ _ (by simp)⟩
  | false =>
    obtain ⟨reset, resets, sameBasic, samePeriod, boundedReset⟩ :=
      tryResetPeriod_bounded m blockTime (by simpa [limit] using bounded) boundedPeriod boundedCanSpend
    obtain ⟨canSpend, isNeg, subtracted, pointwiseCanSpend⟩ := safeSub_of_bounded boundedReset boundedFee
    cases isNeg with
    | true => exact ⟨_, accept_of_period_exceeded live resets subtracted, spends_of_error _ _ (by simp)⟩
    | false =>
      obtain ⟨left, invalid, taken, pointwise⟩ := safeSub_of_bounded bounded boundedFee
      refine ⟨_, accept_of_limit live resets subtracted (by rw [sameBasic, limit]) taken, ?_⟩
      cases invalid with
      | true => exact spends_of_error _ _ (by simp)
      | false =>
        refine ⟨fun _ denom => by simpa [limit] using within_of_diff pointwise denom, fun _ notZero => ?_⟩
        obtain ⟨left_eq, boundedLeft, taken⟩ := sliceOf_taken pointwise bounded boundedFee notZero
        exact ⟨⟨⟨left, left_eq, boundedLeft⟩, samePeriod ▸ boundedPeriod,
          Bounded.of_diff pointwiseCanSpend boundedReset boundedFee⟩, by simpa [limit] using taken⟩

/-- `Accept` returns `remove` exactly when the allowance has expired or the fee is
taken and takes all that is left of the limit. -/
theorem accept_remove_iff (m : PeriodicAllowance) (blockTime : Time) (fee : Coins)
    (r : PeriodicAllowance × Bool × Option GoError) (bounded : Bounded (m.basic.spendLimit.getD []))
    (boundedPeriod : Bounded m.periodSpendLimit) (boundedCanSpend : Bounded m.periodCanSpend)
    (boundedFee : Bounded fee) (accepted : m.accept blockTime fee = .ok r) :
    r.2.1 = true ↔ isExpired m.basic.expiration blockTime = true ∨ (r.2.2 = none ∧ Exhausts m.basic.spendLimit fee) := by
  cases live : isExpired m.basic.expiration blockTime with
  | true =>
    rw [accept_of_expired fee live, Except.ok.injEq] at accepted
    simp [← accepted]
  | false =>
    obtain ⟨reset, resets, sameBasic, -, boundedReset⟩ :=
      tryResetPeriod_bounded m blockTime bounded boundedPeriod boundedCanSpend
    obtain ⟨canSpend, isNeg, subtracted, -⟩ := safeSub_of_bounded boundedReset boundedFee
    cases isNeg with
    | true =>
      rw [accept_of_period_exceeded live resets subtracted, Except.ok.injEq] at accepted
      simp [← accepted]
    | false =>
      cases limit : m.basic.spendLimit with
      | none =>
        rw [accept_of_unlimited live resets subtracted (by rw [sameBasic, limit]), Except.ok.injEq] at accepted
        simp [← accepted, Exhausts]
      | some spendLimit =>
        rw [limit, Option.getD_some] at bounded
        obtain ⟨left, invalid, taken, pointwise⟩ := safeSub_of_bounded bounded boundedFee
        rw [accept_of_limit live resets subtracted (by rw [sameBasic, limit]) taken, Except.ok.injEq] at accepted
        cases invalid with
        | true => simp [← accepted]
        | false => simp [← accepted, exhausts_some_iff, isZero_diff_iff pointwise]

theorem tryResetPeriod_of_unlimited {m : PeriodicAllowance} {blockTime : Time}
    (unlimited : m.basic.spendLimit = none) (reached : ¬blockTime < m.periodReset)
    (boundedPeriod : Bounded m.periodSpendLimit) :
    m.tryResetPeriod blockTime = .ok { m with
      periodCanSpend := m.periodSpendLimit
      periodReset := if m.periodReset + m.period < blockTime then blockTime + m.period
        else m.periodReset + m.period } := by
  have nil : m.basic.spendLimit.getD [] = [] := by rw [unlimited, Option.getD_none]
  have boundedLimit : Bounded (m.basic.spendLimit.getD []) := by rw [nil]; exact Bounded.nil
  obtain ⟨diff, isNeg, subtracted, -⟩ := safeSub_of_bounded boundedLimit boundedPeriod
  rw [tryResetPeriod_of_reached reached subtracted, nil]
  simp [Coins.empty]

/-- With no spend limit, a reached reset refills the period limit and a fee within
it is taken from the refill. -/
theorem accept_of_unlimited_reached {m : PeriodicAllowance} {blockTime : Time} {fee : Coins}
    (unlimited : m.basic.spendLimit = none) (live : isExpired m.basic.expiration blockTime = false)
    (reached : ¬blockTime < m.periodReset) (boundedPeriod : Bounded m.periodSpendLimit) (boundedFee : Bounded fee)
    (within : ∀ denom, CoinOf.amounts id fee denom ≤ CoinOf.amounts id m.periodSpendLimit denom) :
    ∃ canSpend, CoinOf.IsPointwiseDiff SdkInt.isZero id m.periodSpendLimit fee canSpend false ∧
      m.accept blockTime fee = .ok ({ m with
        periodCanSpend := canSpend
        periodReset := if m.periodReset + m.period < blockTime then blockTime + m.period
          else m.periodReset + m.period }, false, none) := by
  obtain ⟨canSpend, hasNeg, subtracted, pointwise⟩ := safeSub_of_bounded boundedPeriod boundedFee
  obtain rfl := flag_false_of_within pointwise within
  exact ⟨canSpend, pointwise,
    accept_of_unlimited live (tryResetPeriod_of_unlimited unlimited reached boundedPeriod) subtracted unlimited⟩

/-- What `ValidateBasic` returning no error says of the coin sets and the period. -/
theorem validated {nonAscii : Char → Char} {m : PeriodicAllowance} (valid : m.validateBasic nonAscii = .ok none) :
    m.basic.validateBasic nonAscii = none ∧ Coins.isValid nonAscii m.periodSpendLimit = true ∧
      Coins.isValid nonAscii m.periodCanSpend = true ∧ 0 ≤ m.period := by
  unfold validateBasic at valid
  cases basicError : m.basic.validateBasic nonAscii with
  | some err => simp [basicError] at valid
  | none =>
    simp only [basicError] at valid
    -- a check that fails returns its error, so each one passed
    cases validPeriod : Coins.isValid nonAscii m.periodSpendLimit
    · simp [validPeriod] at valid
    cases positive : m.periodSpendLimit.isAllPositive
    · simp [validPeriod, positive] at valid
    cases validCanSpend : Coins.isValid nonAscii m.periodCanSpend
    · simp [validPeriod, positive, validCanSpend] at valid
    cases negative : m.periodCanSpend.isAnyNegative
    · refine ⟨rfl, rfl, rfl, ?_⟩
      by_contra backwards
      have below : m.period < 0 := not_le.mp backwards
      cases limit : m.basic.spendLimit with
      | none => simp [validPeriod, positive, validCanSpend, negative, limit, below] at valid
      | some spendLimit =>
        cases subset : Coins.denomsSubsetOf m.periodSpendLimit spendLimit with
        | error fault => simp [validPeriod, positive, validCanSpend, negative, limit, subset] at valid
        | ok isSubset =>
          cases isSubset <;> simp [validPeriod, positive, validCanSpend, negative, limit, subset, below] at valid
    · simp [validPeriod, positive, validCanSpend, negative] at valid

end PeriodicAllowance

theorem BasicAllowance.Limited.nonneg {a : BasicAllowance} (limited : BasicAllowance.Limited a) (denom : String) :
    0 ≤ CoinOf.amounts id (a.spendLimit.getD []) denom := by
  obtain ⟨spendLimit, limit, bounded⟩ := limited
  simpa [limit] using (bounded.amounts_bounds denom).1

/-- Fee allowances never let more than their limit be spent: from a basic or a
periodic allowance that passes `ValidateBasic`, with amounts within the bounds of
`Int`, every run of the keeper over bounded fees returns and pays within the
initial spend limit in every denom; and `Accept` returns `remove` exactly when the
allowance has expired or the fee is taken and takes all that is left. -/
theorem allowances_never_overspend (nonAscii : Char → Char) :
    (∀ (a : BasicAllowance) (spendLimit : Coins) (calls : List (Time × Coins)),
      a.validateBasic nonAscii = none → a.spendLimit = some spendLimit →
      (∀ c ∈ spendLimit, bitLen c.amount ≤ SdkInt.maxBitLen) → (∀ call ∈ calls, Bounded call.2) →
      ∃ final fees, runGrant BasicAllowance.accept (some a) calls = .ok (final, fees) ∧
        ∀ denom, spentTotal fees denom ≤ CoinOf.amounts id spendLimit denom) ∧
    (∀ (m : PeriodicAllowance) (spendLimit : Coins) (calls : List (Time × Coins)),
      m.validateBasic nonAscii = .ok none → m.basic.spendLimit = some spendLimit →
      (∀ c ∈ spendLimit ++ m.periodSpendLimit ++ m.periodCanSpend, bitLen c.amount ≤ SdkInt.maxBitLen) →
      (∀ call ∈ calls, Bounded call.2) →
      ∃ final fees, runGrant PeriodicAllowance.accept (some m) calls = .ok (final, fees) ∧
        ∀ denom, spentTotal fees denom ≤ CoinOf.amounts id spendLimit denom) ∧
    (∀ (a : BasicAllowance) (blockTime : Time) (fee : Coins) (r : BasicAllowance × Bool × Option GoError),
      Bounded (a.spendLimit.getD []) → Bounded fee → a.accept blockTime fee = .ok r →
      (r.2.1 = true ↔ isExpired a.expiration blockTime = true ∨ (r.2.2 = none ∧ Exhausts a.spendLimit fee))) ∧
    (∀ (m : PeriodicAllowance) (blockTime : Time) (fee : Coins) (r : PeriodicAllowance × Bool × Option GoError),
      Bounded (m.basic.spendLimit.getD []) → Bounded m.periodSpendLimit → Bounded m.periodCanSpend →
      Bounded fee → m.accept blockTime fee = .ok r →
      (r.2.1 = true ↔ isExpired m.basic.expiration blockTime = true ∨
        (r.2.2 = none ∧ Exhausts m.basic.spendLimit fee))) := by
  refine ⟨fun a spendLimit calls valid limit fits fees => ?_, fun m spendLimit calls valid limit fits fees => ?_,
    BasicAllowance.accept_remove_iff, PeriodicAllowance.accept_remove_iff⟩
  · have bounded := Bounded.of_isValid nonAscii (BasicAllowance.limit_of_validateBasic valid limit) fits
    have run := runGrant_spent_le BasicAllowance.accept BasicAllowance.Limited (fun a => a.spendLimit.getD [])
      BasicAllowance.accept_spends (fun _ limited => limited.nonneg) calls a ⟨spendLimit, limit, bounded⟩ fees
    simpa [limit] using run
  · obtain ⟨basicValid, validPeriod, validCanSpend, -⟩ := PeriodicAllowance.validated valid
    have limited : PeriodicAllowance.Limited m :=
      ⟨⟨spendLimit, limit, Bounded.of_isValid nonAscii (BasicAllowance.limit_of_validateBasic basicValid limit)
          fun c member => fits c (by simp [member])⟩,
        Bounded.of_isValid nonAscii validPeriod fun c member => fits c (by simp [member]),
        Bounded.of_isValid nonAscii validCanSpend fun c member => fits c (by simp [member])⟩
    have run := runGrant_spent_le PeriodicAllowance.accept PeriodicAllowance.Limited
      (fun m => m.basic.spendLimit.getD []) PeriodicAllowance.accept_spends (fun _ limited => limited.1.nonneg)
      calls m limited fees
    simpa [limit] using run

/-- Ten `atom` of limit, and fees of four and then seven: the run pays within ten. -/
theorem allowances_never_overspend_ten :
    ∃ final fees, runGrant BasicAllowance.accept (some ⟨some [⟨"atom", 10⟩], none⟩)
        [(0, [⟨"atom", 4⟩]), (1, [⟨"atom", 7⟩])] = .ok (final, fees) ∧
      ∀ denom, spentTotal fees denom ≤ CoinOf.amounts id [⟨"atom", 10⟩] denom :=
  (allowances_never_overspend id).1 ⟨some [⟨"atom", 10⟩], none⟩ [⟨"atom", 10⟩] _ (by decide) rfl
    (fun c member => by
      rw [List.mem_singleton.mp member, bitLen_le_iff]
      decide)
    (fun call member => by
      simp only [List.mem_cons, List.not_mem_nil, or_false] at member
      rcases member with rfl | rfl <;> exact Bounded.of_isValid_of_lt id (by decide) (by decide))

/-- A reset reached exactly at its time is moved one period on, to that same time
when the period is zero or, in general, to the block of the reset: a second fee at
that block finds the period limit refilled again, and the first fee is forgotten. -/
theorem accept_twice_at_period_boundary (m : PeriodicAllowance) (fee fee2 : Coins)
    (unlimited : m.basic.spendLimit = none) (live : isExpired m.basic.expiration (m.periodReset + m.period) = false)
    (nonneg : 0 ≤ m.period) (boundedPeriod : Bounded m.periodSpendLimit) (boundedFee : Bounded fee)
    (boundedFee2 : Bounded fee2)
    (within : ∀ denom, CoinOf.amounts id fee denom ≤ CoinOf.amounts id m.periodSpendLimit denom)
    (within2 : ∀ denom, CoinOf.amounts id fee2 denom ≤ CoinOf.amounts id m.periodSpendLimit denom) :
    ∃ m1 m2, m.accept (m.periodReset + m.period) fee = .ok (m1, false, none) ∧
      m1.periodReset = m.periodReset + m.period ∧
      m1.accept (m.periodReset + m.period) fee2 = .ok (m2, false, none) ∧
      ∀ denom, CoinOf.amounts id m2.periodCanSpend denom =
        CoinOf.amounts id m.periodSpendLimit denom - CoinOf.amounts id fee2 denom := by
  have reached : ¬m.periodReset + m.period < m.periodReset := not_lt.mpr (le_add_of_nonneg_right nonneg)
  obtain ⟨canSpend, -, accepted⟩ :=
    PeriodicAllowance.accept_of_unlimited_reached unlimited live reached boundedPeriod boundedFee within
  rw [if_neg (lt_irrefl _)] at accepted
  -- the stored reset is now the block time itself, so the second call resets again
  obtain ⟨canSpend2, pointwise2, accepted2⟩ :=
    PeriodicAllowance.accept_of_unlimited_reached
      (m := { m with periodCanSpend := canSpend, periodReset := m.periodReset + m.period })
      unlimited live (lt_irrefl _) boundedPeriod boundedFee2 within2
  exact ⟨_, _, accepted, rfl, accepted2, pointwise2.amounts_eq⟩

/-- A reset of ten at time ten with a period of five: two fees of ten at block
fifteen are both taken from a period limit of ten. -/
theorem accept_twice_at_period_boundary_fifteen :
    PeriodicAllowance.validateBasic id ⟨⟨none, none⟩, 5, [⟨"atom", 10⟩], [], 10⟩ = .ok none ∧
    ∃ m1 m2, PeriodicAllowance.accept ⟨⟨none, none⟩, 5, [⟨"atom", 10⟩], [], 10⟩ 15 [⟨"atom", 10⟩] =
        .ok (m1, false, none) ∧ m1.periodReset = 15 ∧
      m1.accept 15 [⟨"atom", 10⟩] = .ok (m2, false, none) ∧
      ∀ denom, CoinOf.amounts id m2.periodCanSpend denom =
        CoinOf.amounts id [⟨"atom", 10⟩] denom - CoinOf.amounts id [⟨"atom", 10⟩] denom := by
  have bounded : Bounded [⟨"atom", 10⟩] := Bounded.of_isValid_of_lt id (by decide) (by decide)
  exact ⟨by decide, accept_twice_at_period_boundary ⟨⟨none, none⟩, 5, [⟨"atom", 10⟩], [], 10⟩ _ _ rfl rfl
    (by decide) bounded bounded bounded (fun _ => le_rfl) (fun _ => le_rfl)⟩

/-- When the spend limit is below the period limit in one denom and above it in
another, the refill is the whole spend limit, above the lesser of the two. -/
theorem tryResetPeriod_refills_whole_limit (m : PeriodicAllowance) (blockTime : Time) (spendLimit : Coins)
    (short high : String) (limit : m.basic.spendLimit = some spendLimit) (bounded : Bounded spendLimit)
    (boundedPeriod : Bounded m.periodSpendLimit) (reached : m.periodReset ≤ blockTime)
    (below : CoinOf.amounts id spendLimit short < CoinOf.amounts id m.periodSpendLimit short)
    (above : CoinOf.amounts id m.periodSpendLimit high < CoinOf.amounts id spendLimit high) :
    ∃ m', m.tryResetPeriod blockTime = .ok m' ∧
      CoinOf.amounts id m'.periodCanSpend high = CoinOf.amounts id spendLimit high ∧
      min (CoinOf.amounts id m.periodSpendLimit high) (CoinOf.amounts id spendLimit high) <
        CoinOf.amounts id m'.periodCanSpend high := by
  have getD : m.basic.spendLimit.getD [] = spendLimit := by rw [limit, Option.getD_some]
  have boundedLimit : Bounded (m.basic.spendLimit.getD []) := by rw [getD]; exact bounded
  obtain ⟨diff, isNeg, subtracted, pointwise⟩ := safeSub_of_bounded boundedLimit boundedPeriod
  have negative : isNeg = true := pointwise.flag.mpr ⟨short, by rw [getD]; exact below⟩
  -- the limit holds some of the denom where it is above the period limit
  have nonempty : Coins.empty spendLimit = false := by
    cases spendLimit with
    | nil => exact absurd above (not_lt.mpr ((boundedPeriod.amounts_bounds high).1.trans_eq rfl))
    | cons => rfl
  refine ⟨_, PeriodicAllowance.tryResetPeriod_of_reached (not_lt.mpr reached) subtracted, ?_⟩
  simp only [negative, getD, nonempty, Bool.not_false, Bool.and_true, reduceIte, true_and]
  exact min_lt_of_left_lt above

/-- Ten aaa and one bbb of spend limit against a period limit of one aaa and ten
bbb: the refill holds ten aaa, above the period limit of one. -/
theorem tryResetPeriod_refills_whole_limit_aaa :
    PeriodicAllowance.validateBasic id
        ⟨⟨some [⟨"aaa", 10⟩, ⟨"bbb", 1⟩], none⟩, 5, [⟨"aaa", 1⟩, ⟨"bbb", 10⟩], [], 0⟩ = .ok none ∧
    ∃ m', PeriodicAllowance.tryResetPeriod
        ⟨⟨some [⟨"aaa", 10⟩, ⟨"bbb", 1⟩], none⟩, 5, [⟨"aaa", 1⟩, ⟨"bbb", 10⟩], [], 0⟩ 0 = .ok m' ∧
      CoinOf.amounts id m'.periodCanSpend "aaa" = CoinOf.amounts id [⟨"aaa", 10⟩, ⟨"bbb", 1⟩] "aaa" ∧
      min (CoinOf.amounts id [⟨"aaa", 1⟩, ⟨"bbb", 10⟩] "aaa") (CoinOf.amounts id [⟨"aaa", 10⟩, ⟨"bbb", 1⟩] "aaa") <
        CoinOf.amounts id m'.periodCanSpend "aaa" := by
  have subset : Coins.denomsSubsetOf [⟨"aaa", 1⟩, ⟨"bbb", 10⟩] [⟨"aaa", 10⟩, ⟨"bbb", 1⟩] = .ok true := by
    have ordered : "aaa" < "bbb" := by
      rw [String.lt_iff, show "aaa".toList = ['a', 'a', 'a'] by decide, show "bbb".toList = ['b', 'b', 'b'] by decide]
      decide
    simp [Coins.denomsSubsetOf, Coins.amountOf, CoinOf.amountOf, ordered]
    decide
  have valid : PeriodicAllowance.validateBasic id
      ⟨⟨some [⟨"aaa", 10⟩, ⟨"bbb", 1⟩], none⟩, 5, [⟨"aaa", 1⟩, ⟨"bbb", 10⟩], [], 0⟩ = .ok none := by
    simp only [PeriodicAllowance.validateBasic, subset]
    decide
  exact ⟨valid, tryResetPeriod_refills_whole_limit _ 0 _ "bbb" "aaa" rfl
    (Bounded.of_isValid_of_lt id (by decide) (by decide)) (Bounded.of_isValid_of_lt id (by decide) (by decide))
    le_rfl (by decide) (by decide)⟩

end CoreSdk.Feegrant
