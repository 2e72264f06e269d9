import Mathlib
import CoreSdk.Types.CoinText
import CoreSdk.Types.CoinArith
import CoreSdk.Types.DecArith

/-!
# Between `Coins` and `DecCoins`

`NewCoins` (`types/coin.go`) drops the zero coins of its arguments, sorts the
rest, and panics on a duplicate denom or on a set `IsValid` rejects.
`NewDecCoinsFromCoins` (`types/dec_coin.go`) allocates its result with the
length of its arguments and fills it from the result of `NewCoins`, one
`NewDecCoinFromCoin` a coin. Two things keep it from being the conversion of
`NewCoins`: each zero argument leaves a zero-value `DecCoin` at the end of the
result, and `NewDecCoinFromCoin` validates the denom of every coin where
`IsValid` validates only the first, so a set `NewCoins` accepts can make it
panic (`newDecCoinsFromCoins_pads_removed_zeros`).

`DecCoins.TruncateDecimal` splits each coin into its integer part and its
change and adds each part that is not zero to its set. On a valid set whose
parts both constructors accept, the two sets are the parts in order, and they
add up to the input with less than one unit of change a denom. The constructors
accept less than `IsValid` does: `NewCoin` panics on a later denom that
`ValidateDenom` refuses and `TruncateInt` on an integer part over 255 bits
(`truncateDecimal_splits_or_panics`).
-/

namespace CoreSdk.Types

open Go Go.Big

set_option autoImplicit false

/-- The loop of `findDup` from index `i`, with the denom before it. -/
def findDupLoop {A : Type} (prevDenom : String) (i : Nat) : List (CoinOf A) → Int
  | [] => -1
  | coin :: rest => if coin.denom = prevDenom then i else findDupLoop coin.denom (i + 1) rest

/-- `findDup`: the first index whose denom repeats the one before it, or `-1`. -/
def findDup {A : Type} : List (CoinOf A) → Int
  | [] => -1
  | [_] => -1
  | first :: rest => findDupLoop first.denom 1 rest

/-- `NewCoins`, with `sort.Sort` as `sortCoins`. -/
def newCoins (sortCoins : Coins → Coins) (nonAscii : Char → Char) (coins : Coins) : Result Coins := do
  -- remove zeroes
  let newCoins := Coins.removeZeroCoins coins
  if newCoins.length = 0 then return []
  let newCoins := sortCoins newCoins
  -- detect duplicate Denoms
  let dupIndex := findDup newCoins
  if dupIndex ≠ -1 then
    let dup ← index newCoins dupIndex
    panicWith ("find duplicate denom: " ++ dup.string)
  if !Coins.isValid nonAscii newCoins then panicWith ("invalid coin set: " ++ Coins.string newCoins)
  pure newCoins

/-- `NewDecCoinFromCoin`. -/
def DecCoin.newDecCoinFromCoin (coin : Coin) : Result DecCoin :=
  match Coin.validate coin.denom coin.amount with
  | .error err => panicWith err
  | .ok () => do
    -- `coin.Amount.ToDec()`
    let amount ← Dec.newDecFromInt coin.amount
    pure ⟨coin.denom, amount⟩

/-- The zero value `DecCoin{}` that `make` fills a slice with: no denom and a
nil `Amount`, which the model, having no nil `*big.Int`, holds as zero. -/
def zeroDecCoin : DecCoin := ⟨"", ⟨0⟩⟩

/-- `NewDecCoinsFromCoins`. -/
def newDecCoinsFromCoins (sortCoins : Coins → Coins) (nonAscii : Char → Char) (coins : Coins) :
    Result DecCoins := do
  let decCoins := List.replicate coins.length zeroDecCoin
  let newCoins ← newCoins sortCoins nonAscii coins
  newCoins.zipIdx.foldlM (fun decCoins pair => do
    let decCoin ← DecCoin.newDecCoinFromCoin pair.1
    assign decCoins pair.2 decCoin) decCoins

/-- A set `NewCoins` returns is a valid arrangement of the non-zero arguments. -/
theorem newCoins_eq_ok {sortCoins : Coins → Coins} {nonAscii : Char → Char} {coins cs : Coins}
    (sorts : ∀ cs, (sortCoins cs).Perm cs) (accepted : newCoins sortCoins nonAscii coins = .ok cs) :
    cs.Perm (Coins.removeZeroCoins coins) ∧ Coins.isValid nonAscii cs = true := by
  simp only [newCoins] at accepted
  by_cases empty : (Coins.removeZeroCoins coins).length = 0
  · rw [if_pos empty] at accepted
    cases accepted
    rw [List.eq_nil_of_length_eq_zero empty]
    exact ⟨List.Perm.nil, rfl⟩
  rw [if_neg empty] at accepted
  split_ifs at accepted with duplicate invalid invalid
  · -- a duplicate denom panics
    obtain ⟨_, _, panicked⟩ := bind_eq_ok.mp accepted
    simp [panicWith] at panicked
  · obtain ⟨_, _, panicked⟩ := bind_eq_ok.mp accepted
    simp [panicWith] at panicked
  · simp [panicWith] at accepted
  · cases accepted
    exact ⟨sorts _, by simpa using invalid⟩

theorem newDecCoinFromCoin_of_valid (coin : Coin) (valid : validateDenom coin.denom = .ok ())
    (positive : 0 < coin.amount) :
    DecCoin.newDecCoinFromCoin coin = .ok ⟨coin.denom, ⟨coin.amount * 10 ^ Dec.precision⟩⟩ := by
  have checked : Coin.validate coin.denom coin.amount = .ok () := by
    simp [Coin.validate, valid, SdkInt.isNegative, not_lt.mpr positive.le]
  rw [DecCoin.newDecCoinFromCoin, checked]
  simp only [Dec.newDecFromInt_eq, ok_bind, pure_eq_ok]

theorem newDecCoinFromCoin_of_invalid (coin : Coin) (invalid : validateDenom coin.denom ≠ .ok ()) :
    Panicked (DecCoin.newDecCoinFromCoin coin) := by
  cases refused : validateDenom coin.denom with
  | ok _ => exact absurd refused invalid
  | error err =>
    have checked : Coin.validate coin.denom coin.amount = .error err := by
      rw [Coin.validate, refused]
      rfl
    rw [DecCoin.newDecCoinFromCoin, checked]
    exact ⟨err, rfl⟩

/-- `NewDecCoinFromCoin` returns or panics; it has no error to return. -/
theorem newDecCoinFromCoin_ne_fail (coin : Coin) (message : String) :
    DecCoin.newDecCoinFromCoin coin ≠ fail message := by
  rw [DecCoin.newDecCoinFromCoin]
  split
  · simp [panicWith, fail]
  · simp [Dec.newDecFromInt_eq, fail]

theorem newDecCoinsFromCoins_pads_removed_zeros (sortCoins : Coins → Coins) (nonAscii : Char → Char)
    (sorts : ∀ cs, (sortCoins cs).Perm cs) (coins cs : Coins) (accepted : newCoins sortCoins nonAscii coins = .ok cs) :
    cs.length = (coins.filter fun coin => !SdkInt.isZero coin.amount).length ∧
    ((∀ coin ∈ cs, validateDenom coin.denom = .ok ()) →
      newDecCoinsFromCoins sortCoins nonAscii coins =
        .ok (cs.map (fun coin => ⟨coin.denom, ⟨coin.amount * 10 ^ Dec.precision⟩⟩) ++
          List.replicate (coins.length - cs.length) zeroDecCoin)) ∧
    ((∃ coin ∈ cs, validateDenom coin.denom ≠ .ok ()) → Panicked (newDecCoinsFromCoins sortCoins nonAscii coins)) := by
  obtain ⟨perm, valid⟩ := newCoins_eq_ok sorts accepted
  have length : cs.length = (coins.filter fun coin => !SdkInt.isZero coin.amount).length := perm.length_eq
  have fits : cs.length ≤ coins.length := length ▸ List.length_filter_le _ _
  have positive : ∀ coin ∈ cs, 0 < coin.amount := by
    intro coin member
    have := ((CoinOf.isValid_iff _ _ cs).mp valid).positive coin member
    simpa [SdkInt.isPositive] using this
  refine ⟨length, fun allValid => ?_, fun invalidCoin => ?_⟩
  · -- every coin converts, and the writes cover the first `len(newCoins)` places
    rw [newDecCoinsFromCoins]
    simp only [accepted, ok_bind]
    rw [foldlM_assign_zipIdx DecCoin.newDecCoinFromCoin (fun coin => ⟨coin.denom, ⟨coin.amount * 10 ^ Dec.precision⟩⟩)
        cs 0 _ (by simpa using fits)
        (fun coin member => newDecCoinFromCoin_of_valid coin (allValid coin member) (positive coin member)),
      foldl_set_zipIdx (fun coin : Coin => (⟨coin.denom, ⟨coin.amount * 10 ^ Dec.precision⟩⟩ : DecCoin)) cs 0 _
        (by simpa using fits)]
    simp [List.drop_replicate]
  · -- the loop reaches the coin whose denom is invalid
    obtain ⟨coin, member, invalid⟩ := invalidCoin
    rw [newDecCoinsFromCoins]
    simp only [accepted, ok_bind]
    obtain ⟨i, found⟩ := List.mem_iff_getElem?.mp member
    apply foldlM_panicked
    · intro acc pair message _ failed
      cases converted : DecCoin.newDecCoinFromCoin pair.1 with
      | error fault =>
        rw [converted, error_bind] at failed
        have same : fault = .error message := Except.error.inj failed
        rw [same] at converted
        exact newDecCoinFromCoin_ne_fail pair.1 message converted
      | ok decCoin =>
        rw [converted, ok_bind] at failed
        exact assign_ne_fail _ _ _ _ failed
    · exact ⟨(coin, i), List.mk_mem_zipIdx_iff_getElem?.mpr (by simpa using found),
        fun acc => panicked_bind (newDecCoinFromCoin_of_invalid coin invalid)⟩

/-- The two failing cases: one zero coin gives one zero-value `DecCoin`, where
`NewCoins` gives none, and the set `1atom,1b`, which `NewCoins` accepts, makes
the conversion panic at `b`, a denom too short for `ValidateDenom`. -/
theorem newDecCoinsFromCoins_pads_removed_zeros_atom :
    newCoins id id [⟨"atom", 0⟩] = .ok [] ∧ newDecCoinsFromCoins id id [⟨"atom", 0⟩] = .ok [zeroDecCoin] ∧
      newCoins id id [⟨"atom", 1⟩, ⟨"b", 1⟩] = .ok [⟨"atom", 1⟩, ⟨"b", 1⟩] ∧
      Panicked (newDecCoinsFromCoins id id [⟨"atom", 1⟩, ⟨"b", 1⟩]) := by
  have zero : newCoins id id [⟨"atom", 0⟩] = .ok [] := by decide
  have short : newCoins id id [⟨"atom", 1⟩, ⟨"b", 1⟩] = .ok [⟨"atom", 1⟩, ⟨"b", 1⟩] := by decide
  refine ⟨zero, ?_, short, ?_⟩
  · exact (newDecCoinsFromCoins_pads_removed_zeros id id List.Perm.refl _ _ zero).2.1 (by simp)
  · exact (newDecCoinsFromCoins_pads_removed_zeros id id List.Perm.refl _ _ short).2.2
      ⟨⟨"b", 1⟩, by simp, by decide⟩

/-! ## `TruncateDecimal` -/

/-- `DecCoin.TruncateDecimal`. -/
def DecCoin.truncateDecimal (coin : DecCoin) : Result (Coin × DecCoin) := do
  let truncated ← Dec.truncateInt coin.amount
  -- `truncated.ToDec()`
  let truncatedDec ← Dec.newDecFromInt truncated
  let change ← Dec.sub coin.amount truncatedDec
  let truncatedCoin ← Coin.newCoin coin.denom truncated
  let changeCoin ← DecCoin.newDecCoinFromDec coin.denom change
  pure (truncatedCoin, changeCoin)

/-- One turn of the loop of `DecCoins.TruncateDecimal`, on the two sets built so far. -/
def DecCoins.truncateDecimalStep (parts : Coins × DecCoins) (coin : DecCoin) : Result (Coins × DecCoins) := do
  let split ← DecCoin.truncateDecimal coin
  let truncatedCoins ← (if !SdkInt.isZero split.1.amount then Coins.add parts.1 [split.1] else pure parts.1 :
    Result Coins)
  let changeCoins ← (if !Dec.isZero split.2.amount then DecCoins.add parts.2 [split.2] else pure parts.2 :
    Result DecCoins)
  pure (truncatedCoins, changeCoins)

/-- `DecCoins.TruncateDecimal`. -/
def DecCoins.truncateDecimal (coins : DecCoins) : Result (Coins × DecCoins) :=
  coins.foldlM DecCoins.truncateDecimalStep ([], [])

/-- The integer part of a coin. -/
def DecCoin.truncatedPart (coin : DecCoin) : Coin := ⟨coin.denom, Dec.chopPrecisionAndTruncate coin.amount.i⟩

/-- The change of a coin: its amount less its integer part. -/
def DecCoin.changePart (coin : DecCoin) : DecCoin :=
  ⟨coin.denom, ⟨coin.amount.i - Dec.chopPrecisionAndTruncate coin.amount.i * 10 ^ Dec.precision⟩⟩

@[simp] theorem DecCoin.truncatedPart_denom (coin : DecCoin) : coin.truncatedPart.denom = coin.denom := rfl

@[simp] theorem DecCoin.truncatedPart_amount (coin : DecCoin) :
    coin.truncatedPart.amount = Dec.chopPrecisionAndTruncate coin.amount.i := rfl

@[simp] theorem DecCoin.changePart_denom (coin : DecCoin) : coin.changePart.denom = coin.denom := rfl

@[simp] theorem DecCoin.changePart_amount (coin : DecCoin) :
    coin.changePart.amount.i = coin.amount.i - Dec.chopPrecisionAndTruncate coin.amount.i * 10 ^ Dec.precision := rfl

/-- A non-negative amount has a non-negative integer part and a change below one. -/
theorem chopPrecisionAndTruncate_split {i : Int} (nonneg : 0 ≤ i) :
    0 ≤ Dec.chopPrecisionAndTruncate i ∧ 0 ≤ i - Dec.chopPrecisionAndTruncate i * 10 ^ Dec.precision ∧
      i - Dec.chopPrecisionAndTruncate i * 10 ^ Dec.precision < 10 ^ Dec.precision := by
  have quotient : Dec.chopPrecisionAndTruncate i = i / 10 ^ Dec.precision := Int.tdiv_eq_ediv_of_nonneg nonneg
  have remainder : i - i / 10 ^ Dec.precision * 10 ^ Dec.precision = i % 10 ^ Dec.precision := by
    rw [Int.emod_def, mul_comm]
  rw [quotient, remainder]
  exact ⟨Int.ediv_nonneg nonneg Dec.scale_pos.le, Int.emod_nonneg _ Dec.scale_pos.ne',
    Int.emod_lt_of_pos _ Dec.scale_pos⟩

/-- Up to the two constructors, `TruncateDecimal` computes the two parts; the
change of a non-negative amount is far within the bound of `Sub`. -/
theorem truncateDecimal_eq (coin : DecCoin) (nonneg : 0 ≤ coin.amount.i)
    (fits : bitLen (Dec.chopPrecisionAndTruncate coin.amount.i) ≤ SdkInt.maxBitLen) :
    DecCoin.truncateDecimal coin = (do
      let truncatedCoin ← Coin.newCoin coin.denom coin.truncatedPart.amount
      let changeCoin ← DecCoin.newDecCoinFromDec coin.denom coin.changePart.amount
      pure (truncatedCoin, changeCoin)) := by
  obtain ⟨-, changeNonneg, changeBelow⟩ := chopPrecisionAndTruncate_split nonneg
  have truncated : Dec.truncateInt coin.amount = .ok (Dec.chopPrecisionAndTruncate coin.amount.i) :=
    SdkInt.newIntFromBigInt_eq_ok.mpr ⟨rfl, fits⟩
  have changeFits : bitLen (coin.amount.i - Dec.chopPrecisionAndTruncate coin.amount.i * 10 ^ Dec.precision) ≤
      255 + Dec.decimalPrecisionBits := by
    have scale : (10 : Int) ^ Dec.precision = 1000000000000000000 := by norm_num [Dec.precision]
    rw [bitLen_le_iff, Dec.decimalPrecisionBits]
    omega
  rw [DecCoin.truncateDecimal, truncated, ok_bind, Dec.newDecFromInt_eq, ok_bind, Dec.sub_of_fits _ _ changeFits,
    ok_bind]
  rfl

theorem truncateDecimal_of_fits (coin : DecCoin) (valid : validateDenom coin.denom = .ok ())
    (nonneg : 0 ≤ coin.amount.i) (fits : bitLen (Dec.chopPrecisionAndTruncate coin.amount.i) ≤ SdkInt.maxBitLen) :
    DecCoin.truncateDecimal coin = .ok (coin.truncatedPart, coin.changePart) := by
  obtain ⟨truncatedNonneg, changeNonneg, -⟩ := chopPrecisionAndTruncate_split nonneg
  rw [← DecCoin.truncatedPart_amount] at truncatedNonneg
  rw [← DecCoin.changePart_amount] at changeNonneg
  rw [truncateDecimal_eq coin nonneg fits, Coin.newCoin_of_valid (validateDenom_eq_ok valid) truncatedNonneg,
    ok_bind, DecCoin.newDecCoinFromDec_of_valid valid changeNonneg, ok_bind]
  rfl

/-- `TruncateInt` panics on an integer part over 255 bits. -/
theorem truncateDecimal_of_overflow (coin : DecCoin)
    (overflows : SdkInt.maxBitLen < bitLen (Dec.chopPrecisionAndTruncate coin.amount.i)) :
    Panicked (DecCoin.truncateDecimal coin) := by
  rw [DecCoin.truncateDecimal]
  apply panicked_bind
  exact ⟨_, if_pos overflows⟩

/-- `NewCoin` panics on a denom that `ValidateDenom` refuses, whatever the amount. -/
theorem truncateDecimal_of_invalid (coin : DecCoin) (invalid : validateDenom coin.denom ≠ .ok ())
    (nonneg : 0 ≤ coin.amount.i) (fits : bitLen (Dec.chopPrecisionAndTruncate coin.amount.i) ≤ SdkInt.maxBitLen) :
    Panicked (DecCoin.truncateDecimal coin) := by
  rw [truncateDecimal_eq coin nonneg fits]
  exact panicked_bind (Coin.newCoin_of_invalid _ invalid)

theorem truncateDecimal_ne_fail (coin : DecCoin) (message : String) :
    DecCoin.truncateDecimal coin ≠ fail message := by
  unfold DecCoin.truncateDecimal
  refine bind_ne_fail (SdkInt.newIntFromBigInt_ne_fail _) (fun truncated => ?_) message
  refine bind_ne_fail (fun _ => by rw [Dec.newDecFromInt_eq]; exact (fail_ne_ok _ _).symm) (fun truncatedDec => ?_)
  refine bind_ne_fail (Dec.sub_ne_fail _ _) (fun change => ?_)
  refine bind_ne_fail (Coin.newCoin_ne_fail _ _) (fun truncatedCoin => ?_)
  exact bind_ne_fail (DecCoin.newDecCoinFromDec_ne_fail _ _) (fun _ _ => (fail_ne_ok _ _).symm)

theorem truncateDecimalStep_ne_fail (parts : Coins × DecCoins) (coin : DecCoin) (message : String) :
    DecCoins.truncateDecimalStep parts coin ≠ fail message := by
  unfold DecCoins.truncateDecimalStep
  refine bind_ne_fail (truncateDecimal_ne_fail coin) (fun split => ?_) message
  refine bind_ne_fail (fun other => ?_) (fun truncatedCoins => ?_)
  · split
    · exact CoinOf.safeAddLoop_ne_fail _ _ Coin.add_ne_fail _ _ _ other
    · exact (fail_ne_ok _ _).symm
  refine bind_ne_fail (fun other => ?_) (fun _ _ => (fail_ne_ok _ _).symm)
  split
  · exact CoinOf.safeAddLoop_ne_fail _ _ DecCoin.add_ne_fail _ _ _ other
  · exact (fail_ne_ok _ _).symm

/-! ## The loop of `DecCoins.TruncateDecimal` -/

/-- A part is added to its set unless it is zero; above every denom of a set
free of zero coins, it is appended. -/
theorem safeAdd_ifNonzero {A : Type} (isZero : A → Bool) (addCoins : CoinOf A → CoinOf A → Result (CoinOf A))
    (coins : List (CoinOf A)) (coin : CoinOf A) (below : ∀ c ∈ coins, c.denom < coin.denom)
    (nonzero : ∀ c ∈ coins, isZero c.amount = false) :
    (if !isZero coin.amount then CoinOf.safeAdd isZero addCoins coins [coin] else pure coins :
      Result (List (CoinOf A))) = .ok (coins ++ CoinOf.removeZero isZero [coin]) := by
  cases zero : isZero coin.amount with
  | true => simp [CoinOf.removeZero, zero]
  | false =>
      rw [Bool.not_false, if_pos rfl, CoinOf.safeAdd,
        CoinOf.safeAddLoop_singleton_above isZero addCoins coin zero [] coins below nonzero]
      simp [CoinOf.removeZero, zero]

/-- The loop, from the coins `done` already read: each turn appends the non-zero
parts of its coin, above the parts of the coins before it. -/
theorem truncateDecimal_foldlM (done rest : DecCoins) (ascending : (done ++ rest).Pairwise (·.denom < ·.denom))
    (accepted : ∀ coin ∈ rest, validateDenom coin.denom = .ok () ∧ 0 ≤ coin.amount.i ∧
      bitLen (Dec.chopPrecisionAndTruncate coin.amount.i) ≤ SdkInt.maxBitLen) :
    rest.foldlM DecCoins.truncateDecimalStep
        (Coins.removeZeroCoins (done.map DecCoin.truncatedPart),
          DecCoins.removeZeroDecCoins (done.map DecCoin.changePart)) =
      .ok (Coins.removeZeroCoins ((done ++ rest).map DecCoin.truncatedPart),
        DecCoins.removeZeroDecCoins ((done ++ rest).map DecCoin.changePart)) := by
  induction rest generalizing done with
  | nil => rw [List.append_nil]; rfl
  | cons coin rest induction =>
      obtain ⟨valid, nonneg, fits⟩ := accepted coin List.mem_cons_self
      -- the parts read so far come from coins below this one, and none is zero
      have before : ∀ d ∈ done, d.denom < coin.denom :=
        fun d inDone => (List.pairwise_append.mp ascending).2.2 d inDone coin List.mem_cons_self
      have belowTruncated : ∀ c ∈ Coins.removeZeroCoins (done.map DecCoin.truncatedPart), c.denom < coin.denom := by
        intro c member
        obtain ⟨d, inDone, rfl⟩ := List.mem_map.mp (List.mem_of_mem_filter member)
        exact before d inDone
      have belowChange : ∀ c ∈ DecCoins.removeZeroDecCoins (done.map DecCoin.changePart), c.denom < coin.denom := by
        intro c member
        obtain ⟨d, inDone, rfl⟩ := List.mem_map.mp (List.mem_of_mem_filter member)
        exact before d inDone
      have nonzeroTruncated : ∀ c ∈ Coins.removeZeroCoins (done.map DecCoin.truncatedPart),
          SdkInt.isZero c.amount = false := fun c member => by simpa using (List.mem_filter.mp member).2
      have nonzeroChange : ∀ c ∈ DecCoins.removeZeroDecCoins (done.map DecCoin.changePart),
          Dec.isZero c.amount = false := fun c member => by simpa using (List.mem_filter.mp member).2
      have step : DecCoins.truncateDecimalStep (Coins.removeZeroCoins (done.map DecCoin.truncatedPart),
            DecCoins.removeZeroDecCoins (done.map DecCoin.changePart)) coin =
          .ok (Coins.removeZeroCoins ((done ++ [coin]).map DecCoin.truncatedPart),
            DecCoins.removeZeroDecCoins ((done ++ [coin]).map DecCoin.changePart)) := by
        rw [DecCoins.truncateDecimalStep, truncateDecimal_of_fits coin valid nonneg fits, ok_bind]
        dsimp only
        rw [Coins.add, Coins.safeAdd,
          safeAdd_ifNonzero SdkInt.isZero Coin.add _ coin.truncatedPart belowTruncated nonzeroTruncated, ok_bind,
          DecCoins.add, DecCoins.safeAdd,
          safeAdd_ifNonzero Dec.isZero DecCoin.add _ coin.changePart belowChange nonzeroChange, ok_bind]
        simp [Coins.removeZeroCoins, DecCoins.removeZeroDecCoins, CoinOf.removeZero]
      rw [List.foldlM_cons, step, ok_bind,
        induction (done ++ [coin]) (by simpa using ascending) fun c inRest => accepted c (List.mem_cons_of_mem _ inRest)]
      simp

/-- On coins sorted strictly by denom whose parts both constructors accept,
`TruncateDecimal` returns the non-zero parts in order. -/
theorem truncateDecimal_of_accepted (coins : DecCoins) (ascending : coins.Pairwise (·.denom < ·.denom))
    (accepted : ∀ coin ∈ coins, validateDenom coin.denom = .ok () ∧ 0 ≤ coin.amount.i ∧
      bitLen (Dec.chopPrecisionAndTruncate coin.amount.i) ≤ SdkInt.maxBitLen) :
    DecCoins.truncateDecimal coins =
      .ok (Coins.removeZeroCoins (coins.map DecCoin.truncatedPart),
        DecCoins.removeZeroDecCoins (coins.map DecCoin.changePart)) :=
  truncateDecimal_foldlM [] coins ascending accepted

/-- The parts of a set add up to it, denom by denom, in units of `10^-18`. -/
theorem amounts_parts (coins : DecCoins) (denom : String) :
    CoinOf.amounts id (coins.map DecCoin.truncatedPart) denom * 10 ^ Dec.precision +
      CoinOf.amounts Dec.i (coins.map DecCoin.changePart) denom = CoinOf.amounts Dec.i coins denom := by
  induction coins with
  | nil => simp
  | cons coin rest induction =>
      simp only [List.map_cons, CoinOf.amounts_cons, DecCoin.truncatedPart_denom, DecCoin.changePart_denom]
      by_cases same : coin.denom = denom
      · simp only [same, reduceIte, id, DecCoin.truncatedPart_amount, DecCoin.changePart_amount]
        linear_combination induction
      · simp only [same, reduceIte]
        linear_combination induction

/-- In a set sorted strictly by denom, no denom holds a change of one or more. -/
theorem amounts_changePart_bounds (coins : DecCoins) (ascending : coins.Pairwise (·.denom < ·.denom))
    (nonneg : ∀ coin ∈ coins, 0 ≤ coin.amount.i) (denom : String) :
    0 ≤ CoinOf.amounts Dec.i (coins.map DecCoin.changePart) denom ∧
      CoinOf.amounts Dec.i (coins.map DecCoin.changePart) denom < 10 ^ Dec.precision := by
  by_cases held : ∃ coin ∈ coins, coin.denom = denom
  · -- the one coin of that denom holds its change
    obtain ⟨coin, member, rfl⟩ := held
    have ascendingParts : (coins.map DecCoin.changePart).Pairwise (·.denom < ·.denom) :=
      List.pairwise_map.mpr ascending
    rw [← DecCoin.changePart_denom, CoinOf.amounts_of_mem Dec.i ascendingParts (List.mem_map_of_mem member),
      DecCoin.changePart_amount]
    exact (chopPrecisionAndTruncate_split (nonneg coin member)).2
  · rw [CoinOf.amounts_of_absent Dec.i fun c mapped => ?_]
    · exact ⟨le_rfl, Dec.scale_pos⟩
    · obtain ⟨coin, member, rfl⟩ := List.mem_map.mp mapped
      exact fun same => held ⟨coin, member, same⟩

/-- The non-zero images of a well-formed set under a map that keeps denoms are
well-formed, when every denom passes `ValidateDenom` and every non-zero image is
positive. -/
theorem wellFormed_removeZero_map {A B : Type} {isPositive : A → Bool} {nonAscii : Char → Char}
    (isPositiveB isZeroB : B → Bool) (f : CoinOf A → CoinOf B) (keeps : ∀ c, (f c).denom = c.denom)
    {coins : List (CoinOf A)} (wellFormed : CoinOf.WellFormed isPositive nonAscii coins)
    (denoms : ∀ c ∈ coins, validateDenom c.denom = .ok ())
    (positive : ∀ c ∈ coins, isZeroB (f c).amount = false → isPositiveB (f c).amount = true) :
    CoinOf.WellFormed isPositiveB nonAscii (CoinOf.removeZero isZeroB (coins.map f)) where
  ascending := (List.pairwise_map.mpr (wellFormed.ascending.imp fun lt => by rw [keeps, keeps]; exact lt)).filter _
  positive := by
    intro c member
    obtain ⟨inImage, notZero⟩ := List.mem_filter.mp member
    obtain ⟨a, inCoins, rfl⟩ := List.mem_map.mp inImage
    exact positive a inCoins (by simpa using notZero)
  firstDenom := by
    intro c first
    obtain ⟨a, inCoins, rfl⟩ := List.mem_map.mp (List.mem_of_mem_filter (List.mem_of_mem_head? first))
    rw [keeps]
    exact denoms a inCoins
  lowerCase := by
    intro c member
    -- a later image is the image of a later coin
    have inTail : c ∈ coins.tail.map f := by
      cases coins with
      | nil => simp [CoinOf.removeZero] at member
      | cons first rest =>
          rw [CoinOf.removeZero, List.map_cons, List.filter_cons] at member
          split_ifs at member
          · exact List.mem_of_mem_filter member
          · exact List.mem_of_mem_filter (List.mem_of_mem_tail member)
    obtain ⟨a, later, rfl⟩ := List.mem_map.mp inTail
    rw [keeps]
    exact wellFormed.lowerCase a later

theorem truncateDecimal_splits_or_panics (nonAscii : Char → Char) (dc : DecCoins)
    (valid : DecCoins.isValid nonAscii dc = true) :
    ((∀ coin ∈ dc, validateDenom coin.denom = .ok () ∧
        bitLen (Dec.chopPrecisionAndTruncate coin.amount.i) ≤ SdkInt.maxBitLen) →
      ∃ t c, DecCoins.truncateDecimal dc = .ok (t, c) ∧
        (∀ denom, CoinOf.amounts id t denom * 10 ^ Dec.precision + CoinOf.amounts Dec.i c denom =
          CoinOf.amounts Dec.i dc denom) ∧
        (∀ denom, 0 ≤ CoinOf.amounts Dec.i c denom ∧ CoinOf.amounts Dec.i c denom < 10 ^ Dec.precision) ∧
        Coins.isValid nonAscii t = true ∧ DecCoins.isValid nonAscii c = true) ∧
    ((∃ coin ∈ dc, validateDenom coin.denom ≠ .ok () ∨
        SdkInt.maxBitLen < bitLen (Dec.chopPrecisionAndTruncate coin.amount.i)) →
      Panicked (DecCoins.truncateDecimal dc)) := by
  have wellFormed := (CoinOf.isValid_iff _ _ dc).mp valid
  have nonneg : ∀ coin ∈ dc, 0 ≤ coin.amount.i := by
    intro coin member
    have positive := wellFormed.positive coin member
    simp only [Dec.isPositive, decide_eq_true_eq] at positive
    exact positive.le
  refine ⟨fun accepted => ?_, fun refusedCoin => ?_⟩
  · have each : ∀ coin ∈ dc, validateDenom coin.denom = .ok () ∧ 0 ≤ coin.amount.i ∧
        bitLen (Dec.chopPrecisionAndTruncate coin.amount.i) ≤ SdkInt.maxBitLen :=
      fun coin member => ⟨(accepted coin member).1, nonneg coin member, (accepted coin member).2⟩
    refine ⟨_, _, truncateDecimal_of_accepted dc wellFormed.ascending each, fun denom => ?_, fun denom => ?_, ?_, ?_⟩
    · -- dropping the zero parts changes no amount
      rw [Coins.removeZeroCoins, DecCoins.removeZeroDecCoins,
        CoinOf.amounts_removeZero id SdkInt.isZero (fun _ => SdkInt.isZero_eq_true),
        CoinOf.amounts_removeZero Dec.i Dec.isZero (fun _ => Dec.isZero_eq_true)]
      exact amounts_parts dc denom
    · rw [DecCoins.removeZeroDecCoins, CoinOf.amounts_removeZero Dec.i Dec.isZero (fun _ => Dec.isZero_eq_true)]
      exact amounts_changePart_bounds dc wellFormed.ascending nonneg denom
    · rw [Coins.isValid, CoinOf.isValid_iff]
      apply wellFormed_removeZero_map SdkInt.isPositive SdkInt.isZero DecCoin.truncatedPart (fun _ => rfl) wellFormed
        (fun coin member => (accepted coin member).1)
      intro coin member notZero
      have truncatedNonneg := (chopPrecisionAndTruncate_split (nonneg coin member)).1
      have nonzeroPart : Dec.chopPrecisionAndTruncate coin.amount.i ≠ 0 := of_decide_eq_false notZero
      show decide (0 < Dec.chopPrecisionAndTruncate coin.amount.i) = true
      exact decide_eq_true (by omega)
    · rw [DecCoins.isValid, CoinOf.isValid_iff]
      apply wellFormed_removeZero_map Dec.isPositive Dec.isZero DecCoin.changePart (fun _ => rfl) wellFormed
        (fun coin member => (accepted coin member).1)
      intro coin member notZero
      have changeNonneg := (chopPrecisionAndTruncate_split (nonneg coin member)).2.1
      have nonzeroPart : coin.amount.i - Dec.chopPrecisionAndTruncate coin.amount.i * 10 ^ Dec.precision ≠ 0 :=
        of_decide_eq_false notZero
      show decide (0 < coin.amount.i - Dec.chopPrecisionAndTruncate coin.amount.i * 10 ^ Dec.precision) = true
      exact decide_eq_true (by omega)
  · -- the loop only returns or panics, and the turn of the refused coin panics
    obtain ⟨coin, member, refused⟩ := refusedCoin
    rw [DecCoins.truncateDecimal]
    apply foldlM_panicked
    · exact fun acc x message _ => truncateDecimalStep_ne_fail acc x message
    · refine ⟨coin, member, fun acc => ?_⟩
      rw [DecCoins.truncateDecimalStep]
      apply panicked_bind
      by_cases fits : bitLen (Dec.chopPrecisionAndTruncate coin.amount.i) ≤ SdkInt.maxBitLen
      · exact truncateDecimal_of_invalid coin (refused.resolve_right (not_lt.mpr fits)) (nonneg coin member) fits
      · exact truncateDecimal_of_overflow coin (not_le.mp fits)

/-- Two sets `IsValid` accepts and `TruncateDecimal` panics on: one coin whose
integer part is `2^255`, a bit too long for an `Int`, and `0.000000000000000001`
of a denom `b` after `atom`, too short a denom for `NewCoin` although its
integer part is zero. -/
theorem truncateDecimal_splits_or_panics_atom :
    DecCoins.isValid id [⟨"atom", ⟨2 ^ 255 * 10 ^ 18⟩⟩] = true ∧
      Panicked (DecCoins.truncateDecimal [⟨"atom", ⟨2 ^ 255 * 10 ^ 18⟩⟩]) ∧
    DecCoins.isValid id [⟨"atom", ⟨1⟩⟩, ⟨"b", ⟨1⟩⟩] = true ∧
      Panicked (DecCoins.truncateDecimal [⟨"atom", ⟨1⟩⟩, ⟨"b", ⟨1⟩⟩]) := by
  have large : DecCoins.isValid id [⟨"atom", ⟨2 ^ 255 * 10 ^ 18⟩⟩] = true := by decide
  have short : DecCoins.isValid id [⟨"atom", ⟨1⟩⟩, ⟨"b", ⟨1⟩⟩] = true := by decide
  have part : Dec.chopPrecisionAndTruncate (2 ^ 255 * 10 ^ 18) = ((2 ^ 255 : Nat) : Int) := by decide
  refine ⟨large, ?_, short, ?_⟩
  · apply (truncateDecimal_splits_or_panics id _ large).2
    refine ⟨_, List.mem_cons_self, .inr ?_⟩
    rw [part, bitLen_two_pow]
    decide
  · exact (truncateDecimal_splits_or_panics id _ short).2 ⟨⟨"b", ⟨1⟩⟩, by simp, .inl (by decide)⟩

end CoreSdk.Types
