import CoreSdk.Types.Address
import CoreSdk.Types.CoinArith
import CoreSdk.Types.CoinText

/-!
# Bank messages

`MsgSend.ValidateBasic`, `MsgMultiSend.ValidateBasic` and `ValidateInputsOutputs`
(`bank/types.go`). A multi-send checks each input and output on its own, folds
the merging `Coins.Add` over each side, and compares the two totals with
`Coins.IsEqual`.

The totals are sorted strictly by denom and hold of each denom what the entries
hold together, so the comparison succeeds exactly on balanced messages. It
does not fail on every unbalanced one: `Coins.IsEqual` hands the first coins
that differ to `Coin.IsEqual`, which panics when their denoms differ. Bech32
address decoding is the parameter `accAddressFromBech32`, met by
`Types.accAddressFromBech32` under a prefix, and `sort.Sort` is `sortCoins`,
assumed to sort by denom.
-/

namespace CoreSdk.Bank

open Go CoreSdk.Types

set_option autoImplicit false

/-- `sdk.AccAddress`. -/
abbrev AccAddress := List UInt8

structure MsgSend where
  fromAddress : String
  toAddress : String
  amount : Coins

structure Input where
  address : String
  coins : Coins

structure Output where
  address : String
  coins : Coins

structure MsgMultiSend where
  inputs : List Input
  outputs : List Output

section Validate

variable (accAddressFromBech32 : String → Except String AccAddress) (nonAscii : Char → Char)
  (sortCoins : Coins → Coins)

/-- `MsgSend.ValidateBasic`. -/
def MsgSend.validateBasic (msg : MsgSend) : Result Unit :=
  match accAddressFromBech32 msg.fromAddress with
  | .error _ => fail "invalid sender address"
  | .ok _ =>
      match accAddressFromBech32 msg.toAddress with
      | .error _ => fail "invalid recipient address"
      | .ok _ =>
          if !Coins.isValid nonAscii msg.amount then fail "invalid coins"
          else if !Coins.isAllPositive msg.amount then fail "invalid coins"
          else .ok ()

/-- The body `Input.ValidateBasic` and `Output.ValidateBasic` share; they differ
in the error they return for an address (`addressError` of its decoding error).
Both report an empty set as empty input coins. -/
def validateEntry (addressError : String → String) (address : String) (coins : Coins) : Result Unit :=
  match accAddressFromBech32 address with
  | .error err => fail (addressError err)
  | .ok _ =>
      if Coins.empty coins then fail "empty input coins"
      else if !Coins.isValid nonAscii coins then fail ("invalid input coins [" ++ Coins.string coins ++ "]")
      else if !Coins.isAllPositive coins then fail ("invalid input coins [" ++ Coins.string coins ++ "]")
      else .ok ()

/-- `Input.ValidateBasic`: the address error is returned as it is. -/
def Input.validateBasic (input : Input) : Result Unit :=
  validateEntry accAddressFromBech32 nonAscii id input.address input.coins

/-- `Output.ValidateBasic`. -/
def Output.validateBasic (output : Output) : Result Unit :=
  validateEntry accAddressFromBech32 nonAscii (fun err => "invalid output address (" ++ err ++ ")")
    output.address output.coins

/-- The loop over the inputs or the outputs: each entry validated, then its
coins added to the total, which starts as the nil set. -/
def totalOf {E : Type} (validate : E → Result Unit) (coinsOf : E → Coins) (entries : List E) :
    Result Coins :=
  entries.foldlM (fun total entry => do validate entry; Coins.add total (coinsOf entry)) []

/-- The part `MsgMultiSend.ValidateBasic` and `ValidateInputsOutputs` share, up to
the message for totals that do not match. -/
def validateTotals (mismatch : String) (inputs : List Input) (outputs : List Output) : Result Unit := do
  let totalIn ← totalOf (Input.validateBasic accAddressFromBech32 nonAscii) Input.coins inputs
  let totalOut ← totalOf (Output.validateBasic accAddressFromBech32 nonAscii) Output.coins outputs
  let equal ← Coins.isEqual sortCoins totalIn totalOut
  if !equal then fail mismatch else .ok ()

/-- `MsgMultiSend.ValidateBasic`: both sides non-empty, then the shared checks. -/
def MsgMultiSend.validateBasic (msg : MsgMultiSend) : Result Unit :=
  if msg.inputs.length = 0 then fail "invalid input coins"
  else if msg.outputs.length = 0 then fail "invalid output coins"
  else validateTotals accAddressFromBech32 nonAscii sortCoins "inputs and outputs don\x27t match"
    msg.inputs msg.outputs

/-- `ValidateInputsOutputs`. -/
def validateInputsOutputs (inputs : List Input) (outputs : List Output) : Result Unit :=
  validateTotals accAddressFromBech32 nonAscii sortCoins "sum inputs != sum outputs" inputs outputs

end Validate

/-! ## What the checks accept -/

section Spec

variable (accAddressFromBech32 : String → Except String AccAddress) (nonAscii : Char → Char)

/-- An entry passes when its address decodes and its coins are a non-empty
valid set; the positivity check after `IsValid` never fires. -/
theorem validateEntry_eq_ok (addressError : String → String) (address : String) (coins : Coins) :
    validateEntry accAddressFromBech32 nonAscii addressError address coins = .ok () ↔
      (∃ addr, accAddressFromBech32 address = .ok addr) ∧ coins ≠ [] ∧
        Coins.isValid nonAscii coins = true := by
  unfold validateEntry
  cases decoded : accAddressFromBech32 address with
  | error err => simp
  | ok addr =>
      dsimp only
      by_cases nonempty : coins = []
      · simp [nonempty, Coins.empty]
      by_cases valid : Coins.isValid nonAscii coins = true
      · have positive := Coins.isAllPositive_of_isValid nonAscii nonempty valid
        simp [Coins.empty, nonempty, valid, positive]
      · simp [Coins.empty, nonempty, valid]

/-- The coins of an entry that passes are sorted strictly by denom. -/
theorem ascending_of_validateEntry {addressError : String → String} {address : String} {coins : Coins}
    (valid : validateEntry accAddressFromBech32 nonAscii addressError address coins = .ok ()) :
    coins.Pairwise (·.denom < ·.denom) := by
  have wellFormed := ((validateEntry_eq_ok accAddressFromBech32 nonAscii addressError address coins).mp
    valid).2.2
  rw [Coins.isValid, CoinOf.isValid_iff] at wellFormed
  exact wellFormed.ascending

variable {E : Type} (validate : E → Result Unit) (coinsOf : E → Coins)
  (validAscending : ∀ e, validate e = .ok () → (coinsOf e).Pairwise (·.denom < ·.denom))

include validAscending in
/-- The loop over the entries, from any sorted total without zero coins: every
entry it passes validates, and what it returns is the pointwise sum of the start
and of all the entries' coins. -/
theorem foldlM_addCoins {entries : List E} {start total : Coins}
    (ascending : start.Pairwise (·.denom < ·.denom)) (nonzero : ∀ c ∈ start, SdkInt.isZero c.amount = false)
    (summed : entries.foldlM (fun total entry => do validate entry; Coins.add total (coinsOf entry)) start =
      .ok total) :
    (∀ e ∈ entries, validate e = .ok ()) ∧
      CoinOf.IsPointwiseSum id SdkInt.isZero start (entries.flatMap coinsOf) total := by
  induction entries generalizing start with
  | nil =>
      cases summed
      exact ⟨by simp, CoinOf.IsPointwiseSum.nil ascending nonzero⟩
  | cons entry rest induction =>
      rw [List.foldlM_cons] at summed
      obtain ⟨middle, step, summed⟩ := bind_eq_ok.mp summed
      obtain ⟨⟨⟩, validated, added⟩ := bind_eq_ok.mp step
      -- one step adds the entry's coins to the total
      have first := CoinOf.safeAdd_isPointwiseSum id SdkInt.isZero Coin.add (fun _ => SdkInt.isZero_eq_true)
        Coin.add_spec ascending (validAscending entry validated) added
      obtain ⟨restValid, second⟩ := induction first.ascending first.nonzero summed
      refine ⟨fun e member => ?_, first.append second⟩
      rcases List.mem_cons.mp member with rfl | inRest
      · exact validated
      · exact restValid e inRest

include validAscending in
theorem totalOf_eq_ok {entries : List E} {total : Coins}
    (summed : totalOf validate coinsOf entries = .ok total) :
    (∀ e ∈ entries, validate e = .ok ()) ∧
      CoinOf.IsPointwiseSum id SdkInt.isZero [] (entries.flatMap coinsOf) total :=
  foldlM_addCoins validate coinsOf validAscending List.Pairwise.nil (by simp) summed

end Spec

section Totals

variable (accAddressFromBech32 : String → Except String AccAddress) (nonAscii : Char → Char)
  (sortCoins : Coins → Coins) (permutes : ∀ coins, (sortCoins coins).Perm coins)
  (sorted : ∀ coins, (sortCoins coins).Pairwise (·.denom ≤ ·.denom))

/-- The total of the inputs, and what it is. -/
theorem totalIn_eq_ok {inputs : List Input} {totalIn : Coins}
    (summed : totalOf (Input.validateBasic accAddressFromBech32 nonAscii) Input.coins inputs = .ok totalIn) :
    (∀ input ∈ inputs, Input.validateBasic accAddressFromBech32 nonAscii input = .ok ()) ∧
      CoinOf.IsPointwiseSum id SdkInt.isZero [] (inputs.flatMap Input.coins) totalIn :=
  totalOf_eq_ok _ _ (fun _ valid => ascending_of_validateEntry accAddressFromBech32 nonAscii valid) summed

/-- The total of the outputs, and what it is. -/
theorem totalOut_eq_ok {outputs : List Output} {totalOut : Coins}
    (summed : totalOf (Output.validateBasic accAddressFromBech32 nonAscii) Output.coins outputs = .ok totalOut) :
    (∀ output ∈ outputs, Output.validateBasic accAddressFromBech32 nonAscii output = .ok ()) ∧
      CoinOf.IsPointwiseSum id SdkInt.isZero [] (outputs.flatMap Output.coins) totalOut :=
  totalOf_eq_ok _ _ (fun _ valid => ascending_of_validateEntry accAddressFromBech32 nonAscii valid) summed

include permutes sorted in
/-- Once both totals are in, the shared checks are the comparison in place of
the two sorted totals. -/
theorem validateTotals_of_totals (mismatch : String) {inputs : List Input} {outputs : List Output}
    {totalIn totalOut : Coins}
    (summedIn : totalOf (Input.validateBasic accAddressFromBech32 nonAscii) Input.coins inputs = .ok totalIn)
    (summedOut : totalOf (Output.validateBasic accAddressFromBech32 nonAscii) Output.coins outputs =
      .ok totalOut) :
    validateTotals accAddressFromBech32 nonAscii sortCoins mismatch inputs outputs =
      if totalIn.length ≠ totalOut.length then fail mismatch
      else Coins.isEqualLoop totalIn totalOut >>= fun equal => if !equal then fail mismatch else .ok () := by
  have ascending := (totalIn_eq_ok accAddressFromBech32 nonAscii summedIn).2.ascending
  have ascendingB := (totalOut_eq_ok accAddressFromBech32 nonAscii summedOut).2.ascending
  rw [validateTotals, summedIn, ok_bind, summedOut, ok_bind,
    Coins.isEqual_of_ascending sortCoins permutes sorted ascending ascendingB]
  split_ifs <;> rfl

/-- The two totals are the same list exactly when the inputs hold of every denom
what the outputs hold: sorted sets without zero coins are determined by their
amounts. -/
theorem totals_eq_iff {inputs : List Input} {outputs : List Output} {totalIn totalOut : Coins}
    (summedIn : totalOf (Input.validateBasic accAddressFromBech32 nonAscii) Input.coins inputs = .ok totalIn)
    (summedOut : totalOf (Output.validateBasic accAddressFromBech32 nonAscii) Output.coins outputs =
      .ok totalOut) :
    totalIn = totalOut ↔ ∀ denom, (inputs.map fun input => CoinOf.amounts id input.coins denom).sum =
      (outputs.map fun output => CoinOf.amounts id output.coins denom).sum := by
  have sumIn := (totalIn_eq_ok accAddressFromBech32 nonAscii summedIn).2
  have sumOut := (totalOut_eq_ok accAddressFromBech32 nonAscii summedOut).2
  -- each total holds of a denom what its entries hold together
  have heldIn : ∀ denom, CoinOf.amounts id totalIn denom =
      (inputs.map fun input => CoinOf.amounts id input.coins denom).sum := by
    intro denom
    rw [sumIn.amounts_eq, CoinOf.amounts_nil, CoinOf.amounts_flatMap, zero_add]
  have heldOut : ∀ denom, CoinOf.amounts id totalOut denom =
      (outputs.map fun output => CoinOf.amounts id output.coins denom).sum := by
    intro denom
    rw [sumOut.amounts_eq, CoinOf.amounts_nil, CoinOf.amounts_flatMap, zero_add]
  constructor
  · rintro rfl denom
    rw [← heldIn, ← heldOut]
  · intro balanced
    have nonzero : ∀ total : Coins, (∀ c ∈ total, SdkInt.isZero c.amount = false) →
        ∀ c ∈ total, id c.amount ≠ 0 := by
      intro total nonzeroTotal c member
      simpa [SdkInt.isZero] using nonzeroTotal c member
    exact CoinOf.eq_of_amounts_eq id Function.injective_id sumIn.ascending sumOut.ascending
      (nonzero _ sumIn.nonzero) (nonzero _ sumOut.nonzero) fun denom => by
        rw [heldIn, heldOut, balanced]

/-- What a multi-send should be: every input and output valid on its own, the
totals of both sides within the bounds of `Int`, and as much of every denom in as
out. -/
structure Balanced (inputs : List Input) (outputs : List Output) : Prop where
  inputsValid : ∀ input ∈ inputs, Input.validateBasic accAddressFromBech32 nonAscii input = .ok ()
  outputsValid : ∀ output ∈ outputs, Output.validateBasic accAddressFromBech32 nonAscii output = .ok ()
  totalIn : ∃ total, totalOf (Input.validateBasic accAddressFromBech32 nonAscii) Input.coins inputs = .ok total
  totalOut : ∃ total, totalOf (Output.validateBasic accAddressFromBech32 nonAscii) Output.coins outputs =
    .ok total
  balanced : ∀ denom, (inputs.map fun input => CoinOf.amounts id input.coins denom).sum =
    (outputs.map fun output => CoinOf.amounts id output.coins denom).sum

include permutes sorted in
/-- The shared checks pass exactly on balanced entries. -/
theorem validateTotals_eq_ok_iff (mismatch : String) (inputs : List Input) (outputs : List Output) :
    validateTotals accAddressFromBech32 nonAscii sortCoins mismatch inputs outputs = .ok () ↔
      Balanced accAddressFromBech32 nonAscii inputs outputs := by
  constructor
  · intro accepted
    obtain ⟨totalIn, summedIn, afterIn⟩ := bind_eq_ok.mp accepted
    obtain ⟨totalOut, summedOut, -⟩ := bind_eq_ok.mp afterIn
    rw [validateTotals_of_totals accAddressFromBech32 nonAscii sortCoins permutes sorted mismatch summedIn
      summedOut] at accepted
    split_ifs at accepted with lengths
    · exact absurd accepted (fail_ne_ok _ _)
    obtain ⟨equal, looped, final⟩ := bind_eq_ok.mp accepted
    cases equal with
    | false => exact absurd final (fail_ne_ok _ _)
    | true =>
        have same := Coins.eq_of_isEqualLoop (not_not.mp lengths) looped
        exact ⟨(totalIn_eq_ok accAddressFromBech32 nonAscii summedIn).1,
          (totalOut_eq_ok accAddressFromBech32 nonAscii summedOut).1, ⟨_, summedIn⟩, ⟨_, summedOut⟩,
          (totals_eq_iff accAddressFromBech32 nonAscii summedIn summedOut).mp same⟩
  · intro balanced
    obtain ⟨totalIn, summedIn⟩ := balanced.totalIn
    obtain ⟨totalOut, summedOut⟩ := balanced.totalOut
    have same := (totals_eq_iff accAddressFromBech32 nonAscii summedIn summedOut).mpr balanced.balanced
    subst same
    rw [validateTotals_of_totals accAddressFromBech32 nonAscii sortCoins permutes sorted mismatch summedIn
      summedOut, if_neg (not_not.mpr rfl), Coins.isEqualLoop_self]
    rfl

end Totals

/-! ## What `ValidateBasic` decides -/

section Results

variable (accAddressFromBech32 : String → Except String AccAddress) (nonAscii : Char → Char)

/-- Totals of one length whose first difference is in denom: `ValidateBasic` and
`ValidateInputsOutputs` panic in `Coin.IsEqual` instead of reporting that the
inputs and outputs do not match. -/
theorem validateBasic_panics_of_denoms_differ (sortCoins : Coins → Coins)
    (permutes : ∀ coins, (sortCoins coins).Perm coins)
    (sorted : ∀ coins, (sortCoins coins).Pairwise (·.denom ≤ ·.denom))
    (inputs : List Input) (outputs : List Output) (common rest restB : Coins) (coin coinB : Coin)
    (nonempty : inputs ≠ []) (nonemptyB : outputs ≠ [])
    (summedIn : totalOf (Input.validateBasic accAddressFromBech32 nonAscii) Input.coins inputs =
      .ok (common ++ coin :: rest))
    (summedOut : totalOf (Output.validateBasic accAddressFromBech32 nonAscii) Output.coins outputs =
      .ok (common ++ coinB :: restB))
    (sameLength : rest.length = restB.length) (differ : coin.denom ≠ coinB.denom) :
    MsgMultiSend.validateBasic accAddressFromBech32 nonAscii sortCoins ⟨inputs, outputs⟩ =
        panicWith ("invalid coin denominations; " ++ coin.denom ++ ", " ++ coinB.denom) ∧
      validateInputsOutputs accAddressFromBech32 nonAscii sortCoins inputs outputs =
        panicWith ("invalid coin denominations; " ++ coin.denom ++ ", " ++ coinB.denom) := by
  have panics : ∀ mismatch, validateTotals accAddressFromBech32 nonAscii sortCoins mismatch inputs outputs =
      panicWith ("invalid coin denominations; " ++ coin.denom ++ ", " ++ coinB.denom) := by
    intro mismatch
    rw [validateTotals_of_totals accAddressFromBech32 nonAscii sortCoins permutes sorted mismatch summedIn
      summedOut, if_neg (by simp [sameLength]), Coins.isEqualLoop_append_self,
      Coins.isEqualLoop_of_denoms_differ _ _ _ _ differ, panicWith_bind]
  refine ⟨?_, panics _⟩
  rw [MsgMultiSend.validateBasic, if_neg (by simpa using nonempty), if_neg (by simpa using nonemptyB)]
  exact panics _

/-- One input of `1aaa` and one output of `1bbb`, at two addresses that decode
under the account prefix `iaa`. -/
theorem validateBasic_panics_of_denoms_differ_one_each :
    totalOf (Input.validateBasic (Types.accAddressFromBech32 defaultAccountAddr) id) Input.coins
        [⟨"iaa1qypqxpq9qcrsszg2pvxq6rs0zqg3yyc52qv0yd", [⟨"aaa", 1⟩]⟩] = .ok ([] ++ ⟨"aaa", 1⟩ :: []) ∧
      totalOf (Output.validateBasic (Types.accAddressFromBech32 defaultAccountAddr) id) Output.coins
        [⟨"iaa1v4nxw6rfdf4kcmtwdac8zunnw36hvamc2c73fm", [⟨"bbb", 1⟩]⟩] = .ok ([] ++ ⟨"bbb", 1⟩ :: []) ∧
      MsgMultiSend.validateBasic (Types.accAddressFromBech32 defaultAccountAddr) id CoinOf.sortByDenom
          ⟨[⟨"iaa1qypqxpq9qcrsszg2pvxq6rs0zqg3yyc52qv0yd", [⟨"aaa", 1⟩]⟩],
            [⟨"iaa1v4nxw6rfdf4kcmtwdac8zunnw36hvamc2c73fm", [⟨"bbb", 1⟩]⟩]⟩ =
        panicWith "invalid coin denominations; aaa, bbb" := by
  -- the two addresses carry the bytes 1 to 20 and 101 to 120
  have decodedIn : Types.accAddressFromBech32 defaultAccountAddr "iaa1qypqxpq9qcrsszg2pvxq6rs0zqg3yyc52qv0yd" =
      .ok [1, 2, 3, 4, 5, 6, 7, 8, 9, 10, 11, 12, 13, 14, 15, 16, 17, 18, 19, 20] := by
    decide +kernel
  have decodedOut : Types.accAddressFromBech32 defaultAccountAddr "iaa1v4nxw6rfdf4kcmtwdac8zunnw36hvamc2c73fm" =
      .ok [101, 102, 103, 104, 105, 106, 107, 108, 109, 110, 111, 112, 113, 114, 115, 116, 117, 118, 119, 120] := by
    decide +kernel
  have validIn : Input.validateBasic (Types.accAddressFromBech32 defaultAccountAddr) id
      ⟨"iaa1qypqxpq9qcrsszg2pvxq6rs0zqg3yyc52qv0yd", [⟨"aaa", 1⟩]⟩ = .ok () :=
    (validateEntry_eq_ok _ _ _ _ _).mpr ⟨⟨_, decodedIn⟩, by simp, by decide⟩
  have validOut : Output.validateBasic (Types.accAddressFromBech32 defaultAccountAddr) id
      ⟨"iaa1v4nxw6rfdf4kcmtwdac8zunnw36hvamc2c73fm", [⟨"bbb", 1⟩]⟩ = .ok () :=
    (validateEntry_eq_ok _ _ _ _ _).mpr ⟨⟨_, decodedOut⟩, by simp, by decide⟩
  have summedIn : totalOf (Input.validateBasic (Types.accAddressFromBech32 defaultAccountAddr) id) Input.coins
      [⟨"iaa1qypqxpq9qcrsszg2pvxq6rs0zqg3yyc52qv0yd", [⟨"aaa", 1⟩]⟩] = .ok ([] ++ ⟨"aaa", 1⟩ :: []) := by
    simp only [totalOf, List.foldlM_cons, List.foldlM_nil, validIn, ok_bind, Coins.add, Coins.safeAdd,
      CoinOf.safeAdd, CoinOf.safeAddLoop_nil_cons]
    decide
  have summedOut : totalOf (Output.validateBasic (Types.accAddressFromBech32 defaultAccountAddr) id) Output.coins
      [⟨"iaa1v4nxw6rfdf4kcmtwdac8zunnw36hvamc2c73fm", [⟨"bbb", 1⟩]⟩] = .ok ([] ++ ⟨"bbb", 1⟩ :: []) := by
    simp only [totalOf, List.foldlM_cons, List.foldlM_nil, validOut, ok_bind, Coins.add, Coins.safeAdd,
      CoinOf.safeAdd, CoinOf.safeAddLoop_nil_cons]
    decide
  exact ⟨summedIn, summedOut, (validateBasic_panics_of_denoms_differ (Types.accAddressFromBech32 defaultAccountAddr)
    id CoinOf.sortByDenom CoinOf.sortByDenom_perm CoinOf.sortByDenom_sorted _ _ [] [] [] ⟨"aaa", 1⟩ ⟨"bbb", 1⟩
    (by simp) (by simp) summedIn summedOut rfl (by decide)).1⟩

/-- `MsgMultiSend.ValidateBasic` returns nil exactly on non-empty balanced
messages, and `ValidateInputsOutputs` exactly on balanced entries. -/
theorem validateBasic_eq_ok_iff (sortCoins : Coins → Coins)
    (permutes : ∀ coins, (sortCoins coins).Perm coins)
    (sorted : ∀ coins, (sortCoins coins).Pairwise (·.denom ≤ ·.denom))
    (inputs : List Input) (outputs : List Output) :
    (MsgMultiSend.validateBasic accAddressFromBech32 nonAscii sortCoins ⟨inputs, outputs⟩ = .ok () ↔
        inputs ≠ [] ∧ outputs ≠ [] ∧ Balanced accAddressFromBech32 nonAscii inputs outputs) ∧
      (validateInputsOutputs accAddressFromBech32 nonAscii sortCoins inputs outputs = .ok () ↔
        Balanced accAddressFromBech32 nonAscii inputs outputs) := by
  have shared := validateTotals_eq_ok_iff accAddressFromBech32 nonAscii sortCoins permutes sorted
  refine ⟨?_, shared _ inputs outputs⟩
  rw [MsgMultiSend.validateBasic]
  -- the two emptiness checks come first
  by_cases emptyIn : inputs = []
  · simp [emptyIn]
  by_cases emptyOut : outputs = []
  · simp [emptyIn, emptyOut]
  rw [if_neg (by simpa using emptyIn), if_neg (by simpa using emptyOut), shared]
  exact ⟨fun balanced => ⟨emptyIn, emptyOut, balanced⟩, fun all => all.2.2⟩

/-- Two `aaa` in and one out, between two addresses under `iaa`: the balance
fails, so `ValidateBasic` does not return nil. -/
theorem validateBasic_eq_ok_iff_unbalanced :
    MsgMultiSend.validateBasic (Types.accAddressFromBech32 defaultAccountAddr) id CoinOf.sortByDenom
      ⟨[⟨"iaa1qypqxpq9qcrsszg2pvxq6rs0zqg3yyc52qv0yd", [⟨"aaa", 2⟩]⟩],
        [⟨"iaa1v4nxw6rfdf4kcmtwdac8zunnw36hvamc2c73fm", [⟨"aaa", 1⟩]⟩]⟩ ≠ .ok () := by
  intro accepted
  have balanced := ((validateBasic_eq_ok_iff (Types.accAddressFromBech32 defaultAccountAddr) id
    CoinOf.sortByDenom CoinOf.sortByDenom_perm CoinOf.sortByDenom_sorted _ _).1.mp accepted).2.2.balanced "aaa"
  simp at balanced

end Results

end CoreSdk.Bank
