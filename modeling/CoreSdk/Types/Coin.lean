import CoreSdk.Types.Int
import Mathlib.Data.String.Basic

/-!
# Coins

A transcription of the coin-set logic of `types/coin.go`: `ValidateDenom`,
`Coin.Add`, `Coins.IsValid`, `Coins.Add` and its merge `safeAdd`, and
`removeZeroCoins`. `DecCoins` (`types/dec_coin.go`) repeats the same functions
over decimal amounts, so the merge and the validity check are written once here,
over the amount type, and each coin type applies them to its own amount
operations.

`IsValid` checks the first coin with `ValidateDenom`, whose pattern admits
upper-case letters, and every later coin only for being lower case, sorted
after the one before and positive. `strings.ToLower` maps ASCII letters itself
and other runes by the Unicode case tables, which are the parameter `nonAscii`.
-/

namespace CoreSdk.Types

open Go

set_option autoImplicit false

/-- `Coin` and `DecCoin`, over the type of their amount. -/
structure CoinOf (A : Type) where
  denom : String
  amount : A
  deriving DecidableEq, Repr

/-- `unicode.ToLower` on a rune: ASCII as Go maps it, any other rune by `nonAscii`. -/
def toLowerRune (nonAscii : Char → Char) (c : Char) : Char :=
  if c.toNat < 128 then c.toLower else nonAscii c

/-- `strings.ToLower`. -/
def stringsToLower (nonAscii : Char → Char) (s : String) : String :=
  String.ofList (s.toList.map (toLowerRune nonAscii))

/-- On ASCII text `strings.ToLower` never reaches the Unicode tables. -/
theorem stringsToLower_of_ascii (nonAscii : Char → Char) (s : String)
    (ascii : ∀ c ∈ s.toList, c.toNat < 128) :
    stringsToLower nonAscii s = String.ofList (s.toList.map Char.toLower) := by
  unfold stringsToLower
  congr 1
  exact List.map_congr_left fun c member => if_pos (ascii c member)

/-- `reDnm`, the pattern `^[a-zA-Z][a-zA-Z0-9/:]{2,127}$`. -/
def matchesDenom (denom : String) : Bool :=
  match denom.toList with
  | [] => false
  | first :: rest =>
      first.isAlpha && 2 ≤ rest.length && rest.length ≤ 127 &&
        rest.all (fun c => c.isAlphanum || c = '/' || c = ':')

/-- `ValidateDenom`. -/
def validateDenom (denom : String) : Except String Unit :=
  if !matchesDenom denom then .error ("invalid denom: " ++ denom) else .ok ()

theorem validateDenom_toBool (denom : String) :
    (validateDenom denom).toBool = true ↔ validateDenom denom = .ok () := by
  unfold validateDenom
  split_ifs <;> simp [Except.toBool]

theorem validateDenom_eq_ok {denom : String} (valid : validateDenom denom = .ok ()) :
    matchesDenom denom = true := by
  unfold validateDenom at valid
  split_ifs at valid with refused
  simpa using refused

theorem validateDenom_of_matches {denom : String} (accepted : matchesDenom denom = true) :
    validateDenom denom = .ok () := by
  simp [validateDenom, accepted]

namespace CoinOf

variable {A : Type}

/-! ## The merge of `safeAdd` -/

section Merge

variable (isZero : A → Bool) (addCoins : CoinOf A → CoinOf A → Result (CoinOf A))

/-- `removeZeroCoins`: the coins whose amount is not zero, in order (the source
filters the slice in place). -/
def removeZero (coins : List (CoinOf A)) : List (CoinOf A) :=
  coins.filter (fun coin => !isZero coin.amount)

/-- The loop of `safeAdd`: the `sum` so far, and the coins of each set from its
index on. Go's `strings.Compare` is the order of Lean strings: on valid UTF-8
both compare code points. -/
def safeAddLoop (sum : List (CoinOf A)) : List (CoinOf A) → List (CoinOf A) → Result (List (CoinOf A))
  -- return nil coins if both sets are empty
  | [], [] => pure sum
  -- return set B (excluding zero coins) if set A is empty
  | [], coinB :: restB => pure (sum ++ removeZero isZero (coinB :: restB))
  -- return set A (excluding zero coins) if set B is empty
  | coinA :: restA, [] => pure (sum ++ removeZero isZero (coinA :: restA))
  | coinA :: restA, coinB :: restB =>
      if coinA.denom < coinB.denom then
        safeAddLoop (if isZero coinA.amount then sum else sum ++ [coinA]) restA (coinB :: restB)
      else if coinA.denom = coinB.denom then do
        let res ← addCoins coinA coinB
        safeAddLoop (if isZero res.amount then sum else sum ++ [res]) restA restB
      else
        safeAddLoop (if isZero coinB.amount then sum else sum ++ [coinB]) (coinA :: restA) restB
termination_by coinsA coinsB => coinsA.length + coinsB.length

/-- `safeAdd`. -/
def safeAdd (coins coinsB : List (CoinOf A)) : Result (List (CoinOf A)) :=
  safeAddLoop isZero addCoins [] coins coinsB

variable (sum : List (CoinOf A)) (coinA coinB : CoinOf A) (restA restB : List (CoinOf A))

theorem safeAddLoop_nil_nil : safeAddLoop isZero addCoins sum [] [] = .ok sum := by
  rw [safeAddLoop]
  rfl

theorem safeAddLoop_nil_cons :
    safeAddLoop isZero addCoins sum [] (coinB :: restB) =
      .ok (sum ++ removeZero isZero (coinB :: restB)) := by
  rw [safeAddLoop]
  rfl

theorem safeAddLoop_cons_nil :
    safeAddLoop isZero addCoins sum (coinA :: restA) [] =
      .ok (sum ++ removeZero isZero (coinA :: restA)) := by
  rw [safeAddLoop]
  rfl

theorem safeAddLoop_lt (lt : coinA.denom < coinB.denom) :
    safeAddLoop isZero addCoins sum (coinA :: restA) (coinB :: restB) =
      safeAddLoop isZero addCoins (if isZero coinA.amount then sum else sum ++ [coinA]) restA
        (coinB :: restB) := by
  rw [safeAddLoop, if_pos lt]

theorem safeAddLoop_eq (same : coinA.denom = coinB.denom) :
    safeAddLoop isZero addCoins sum (coinA :: restA) (coinB :: restB) =
      (addCoins coinA coinB >>= fun res =>
        safeAddLoop isZero addCoins (if isZero res.amount then sum else sum ++ [res]) restA restB) := by
  rw [safeAddLoop, if_neg (by rw [same]; exact lt_irrefl _), if_pos same]

theorem safeAddLoop_gt (gt : coinB.denom < coinA.denom) :
    safeAddLoop isZero addCoins sum (coinA :: restA) (coinB :: restB) =
      safeAddLoop isZero addCoins (if isZero coinB.amount then sum else sum ++ [coinB])
        (coinA :: restA) restB := by
  rw [safeAddLoop, if_neg (lt_asymm gt), if_neg (ne_of_gt gt)]

end Merge

/-! ## `IsValid` -/

section Valid

variable (isPositive : A → Bool) (nonAscii : Char → Char)

/-- The single-coin case of `IsValid`. -/
def isValidFirst (coin : CoinOf A) : Bool :=
  (validateDenom coin.denom).toBool && isPositive coin.amount

/-- The loop of `IsValid` over `coins[1:]`, with the last denom read. -/
def isValidTail (lowDenom : String) : List (CoinOf A) → Bool
  | [] => true
  | coin :: rest =>
      if stringsToLower nonAscii coin.denom ≠ coin.denom then false
      else if coin.denom ≤ lowDenom then false
      else if !isPositive coin.amount then false
      -- we compare each coin against the last denom
      else isValidTail coin.denom rest

/-- `IsValid`. -/
def isValid : List (CoinOf A) → Bool
  | [] => true
  | [coin] => isValidFirst isPositive coin
  -- check single coin case, then the rest
  | coin :: second :: rest => isValidFirst isPositive coin && isValidTail isPositive nonAscii coin.denom (second :: rest)

end Valid

/-! ## What `IsValid` checks -/

section ValidSpec

variable (isPositive : A → Bool) (nonAscii : Char → Char)

/-- What `IsValid` asks of a coin set as a whole: denoms strictly increasing,
amounts positive, the first denom matching the denom pattern and every later
one unchanged by `strings.ToLower`. -/
structure WellFormed (coins : List (CoinOf A)) : Prop where
  ascending : coins.Pairwise (·.denom < ·.denom)
  positive : ∀ c ∈ coins, isPositive c.amount = true
  firstDenom : ∀ c ∈ coins.head?, validateDenom c.denom = .ok ()
  lowerCase : ∀ c ∈ coins.tail, stringsToLower nonAscii c.denom = c.denom

/-- The loop over `coins[1:]` checks every later coin against the one before it;
by transitivity, against every earlier one. -/
theorem isValidTail_iff (low : String) (coins : List (CoinOf A)) :
    isValidTail isPositive nonAscii low coins = true ↔
      (∀ c ∈ coins, low < c.denom) ∧ coins.Pairwise (·.denom < ·.denom) ∧
        ∀ c ∈ coins, stringsToLower nonAscii c.denom = c.denom ∧ isPositive c.amount = true := by
  induction coins generalizing low with
  | nil => simp [isValidTail]
  | cons coin rest induction =>
      have step : isValidTail isPositive nonAscii low (coin :: rest) = true ↔
          stringsToLower nonAscii coin.denom = coin.denom ∧ low < coin.denom ∧
            isPositive coin.amount = true ∧ isValidTail isPositive nonAscii coin.denom rest = true := by
        simp only [isValidTail]
        split_ifs with upper atOrBelow notPositive
        · exact iff_of_false not_false fun all => upper all.1
        · exact iff_of_false not_false fun all => not_lt.mpr atOrBelow all.2.1
        · exact iff_of_false not_false fun all => by simp [all.2.2.1] at notPositive
        · exact ⟨fun tail => ⟨not_not.mp upper, not_le.mp atOrBelow, by simpa using notPositive, tail⟩,
            fun all => all.2.2.2⟩
      rw [step, induction, List.pairwise_cons]
      constructor
      · rintro ⟨lower, above, positive, aboveRest, ascending, each⟩
        refine ⟨?_, ⟨aboveRest, ascending⟩, ?_⟩
        · intro c member
          rcases List.mem_cons.mp member with rfl | inRest
          · exact above
          · exact lt_trans above (aboveRest c inRest)
        · intro c member
          rcases List.mem_cons.mp member with rfl | inRest
          · exact ⟨lower, positive⟩
          · exact each c inRest
      · rintro ⟨above, ⟨aboveRest, ascending⟩, each⟩
        obtain ⟨lower, positive⟩ := each coin List.mem_cons_self
        exact ⟨lower, above coin List.mem_cons_self, positive, aboveRest, ascending,
          fun c inRest => each c (List.mem_cons_of_mem _ inRest)⟩

theorem wellFormed_cons_iff (coin : CoinOf A) (rest : List (CoinOf A)) :
    WellFormed isPositive nonAscii (coin :: rest) ↔
      isValidFirst isPositive coin = true ∧ isValidTail isPositive nonAscii coin.denom rest = true := by
  rw [isValidTail_iff, isValidFirst, Bool.and_eq_true, validateDenom_toBool]
  constructor
  · intro wellFormed
    obtain ⟨aboveRest, ascending⟩ := List.pairwise_cons.mp wellFormed.ascending
    exact ⟨⟨wellFormed.firstDenom coin rfl, wellFormed.positive coin List.mem_cons_self⟩,
      aboveRest, ascending, fun c inRest =>
        ⟨wellFormed.lowerCase c inRest, wellFormed.positive c (List.mem_cons_of_mem _ inRest)⟩⟩
  · rintro ⟨⟨denom, positive⟩, aboveRest, ascending, each⟩
    refine ⟨List.pairwise_cons.mpr ⟨aboveRest, ascending⟩, ?_, ?_, fun c inRest => (each c inRest).1⟩
    · intro c member
      rcases List.mem_cons.mp member with rfl | inRest
      · exact positive
      · exact (each c inRest).2
    · intro c first
      rw [Option.mem_def, List.head?_cons, Option.some.injEq] at first
      rw [← first]
      exact denom

/-- `IsValid` decides `WellFormed`. -/
theorem isValid_iff (coins : List (CoinOf A)) :
    isValid isPositive nonAscii coins = true ↔ WellFormed isPositive nonAscii coins := by
  match coins with
  | [] => exact ⟨fun _ => ⟨List.Pairwise.nil, by simp, by simp, by simp⟩, fun _ => rfl⟩
  | [coin] => rw [wellFormed_cons_iff, isValid]; simp [isValidTail]
  | coin :: second :: rest => rw [wellFormed_cons_iff, isValid, Bool.and_eq_true]

/-- A later coin that `strings.ToLower` changes makes the set invalid, whatever
the first coin is. -/
theorem isValid_of_upper_second (coin second : CoinOf A) (rest : List (CoinOf A))
    (upper : stringsToLower nonAscii second.denom ≠ second.denom) :
    isValid isPositive nonAscii (coin :: second :: rest) = false := by
  simp [isValid, isValidTail, upper]

end ValidSpec

/-! ## What the merge produces -/

section MergeSpec

variable (isZero : A → Bool) (addCoins : CoinOf A → CoinOf A → Result (CoinOf A))

/-- Where a coin of the sum comes from: a coin of either set, or the `Add` of a
coin of each set with the same denom. -/
def FromInputs (coinsA coinsB : List (CoinOf A)) (c : CoinOf A) : Prop :=
  c ∈ coinsA ∨ c ∈ coinsB ∨ ∃ a ∈ coinsA, ∃ b ∈ coinsB, a.denom = b.denom ∧ addCoins a b = .ok c

theorem FromInputs.mono {coinsA coinsB coinsA' coinsB' : List (CoinOf A)} {c : CoinOf A}
    (subA : ∀ x ∈ coinsA, x ∈ coinsA') (subB : ∀ x ∈ coinsB, x ∈ coinsB')
    (from_ : FromInputs addCoins coinsA coinsB c) : FromInputs addCoins coinsA' coinsB' c := by
  rcases from_ with inA | inB | ⟨a, inA, b, inB, same, added⟩
  · exact .inl (subA c inA)
  · exact .inr (.inl (subB c inB))
  · exact .inr (.inr ⟨a, subA a inA, b, subB b inB, same, added⟩)

/-- The merge step that appends a coin unless its amount is zero. -/
theorem mem_of_mem_appendIf {sum : List (CoinOf A)} {coin c : CoinOf A} {zero : Prop} [Decidable zero]
    (member : c ∈ (if zero then sum else sum ++ [coin])) : c ∈ sum ∨ c = coin := by
  split_ifs at member
  · exact .inl member
  · simpa using member

/-- A sum that the merge step may have appended to still starts with the sum. -/
theorem appendIf_append {sum rest : List (CoinOf A)} {coin : CoinOf A} {zero : Prop} [Decidable zero] :
    ∃ rest', (if zero then sum else sum ++ [coin]) ++ rest = sum ++ rest' := by
  split_ifs
  · exact ⟨rest, rfl⟩
  · exact ⟨[coin] ++ rest, by simp⟩

/-- The merge only appends to the sum it has built. -/
theorem safeAddLoop_prefix {sum coinsA coinsB res : List (CoinOf A)}
    (run : safeAddLoop isZero addCoins sum coinsA coinsB = .ok res) : ∃ rest, res = sum ++ rest := by
  fun_induction safeAddLoop isZero addCoins sum coinsA coinsB with
  | case1 sum => exact ⟨[], by simpa using run.symm⟩
  | case2 sum coinB restB => exact ⟨_, (Except.ok.inj run).symm⟩
  | case3 sum coinA restA => exact ⟨_, (Except.ok.inj run).symm⟩
  | case4 sum coinA restA coinB restB lt induction =>
      simp only [dite_eq_ite] at induction
      obtain ⟨rest, rfl⟩ := induction run
      exact appendIf_append
  | case5 sum coinA restA coinB restB notLt same induction =>
      obtain ⟨res', _, run⟩ := bind_eq_ok.mp run
      specialize induction res'
      simp only [dite_eq_ite] at induction
      obtain ⟨rest, rfl⟩ := induction run
      exact appendIf_append
  | case6 sum coinA restA coinB restB notLt notSame induction =>
      simp only [dite_eq_ite] at induction
      obtain ⟨rest, rfl⟩ := induction run
      exact appendIf_append

/-- A step of the merge that may append `coin`, a coin of the inputs, and goes on
with inputs that are among the current ones: what the rest of the run returns
was in the sum or comes from the current inputs. -/
theorem origin_of_appendIf_step {sum res coinsA coinsB restA restB : List (CoinOf A)} {coin : CoinOf A}
    {zero : Prop} [Decidable zero]
    (later : ∀ c ∈ res, c ∈ (if zero then sum else sum ++ [coin]) ∨ FromInputs addCoins restA restB c)
    (fromCoin : FromInputs addCoins coinsA coinsB coin) (subA : ∀ x ∈ restA, x ∈ coinsA)
    (subB : ∀ x ∈ restB, x ∈ coinsB) :
    ∀ c ∈ res, c ∈ sum ∨ FromInputs addCoins coinsA coinsB c := by
  intro c member
  rcases later c member with inSum | from_
  · rcases mem_of_mem_appendIf inSum with inSum | rfl
    · exact .inl inSum
    · exact .inr fromCoin
  · exact .inr (from_.mono addCoins subA subB)

/-- Every coin of the sum was in the sum already, or comes from the coins read. -/
theorem safeAddLoop_origin {sum coinsA coinsB res : List (CoinOf A)}
    (run : safeAddLoop isZero addCoins sum coinsA coinsB = .ok res) :
    ∀ c ∈ res, c ∈ sum ∨ FromInputs addCoins coinsA coinsB c := by
  fun_induction safeAddLoop isZero addCoins sum coinsA coinsB with
  | case1 sum =>
      intro c member
      exact .inl (by rwa [← Except.ok.inj run] at member)
  | case2 sum coinB restB =>
      intro c member
      rw [← Except.ok.inj run, List.mem_append] at member
      rcases member with inSum | kept
      · exact .inl inSum
      · exact .inr (.inr (.inl (List.mem_of_mem_filter kept)))
  | case3 sum coinA restA =>
      intro c member
      rw [← Except.ok.inj run, List.mem_append] at member
      rcases member with inSum | kept
      · exact .inl inSum
      · exact .inr (.inl (List.mem_of_mem_filter kept))
  | case4 sum coinA restA coinB restB lt induction =>
      simp only [dite_eq_ite] at induction
      exact origin_of_appendIf_step addCoins (induction run) (.inl List.mem_cons_self)
        (fun x => List.mem_cons_of_mem _) (fun x => id)
  | case5 sum coinA restA coinB restB notLt same induction =>
      obtain ⟨res', added, run⟩ := bind_eq_ok.mp run
      specialize induction res'
      simp only [dite_eq_ite] at induction
      exact origin_of_appendIf_step addCoins (induction run)
        (.inr (.inr ⟨coinA, List.mem_cons_self, coinB, List.mem_cons_self, same, added⟩))
        (fun x => List.mem_cons_of_mem _) (fun x => List.mem_cons_of_mem _)
  | case6 sum coinA restA coinB restB notLt notSame induction =>
      simp only [dite_eq_ite] at induction
      exact origin_of_appendIf_step addCoins (induction run) (.inr (.inl List.mem_cons_self)) (fun x => id)
        (fun x => List.mem_cons_of_mem _)

/-- The state of the merge between two steps: the sum and both remainders
ascending, and every coin of the sum below every coin still to be read. -/
structure MergeInv (sum coinsA coinsB : List (CoinOf A)) : Prop where
  sumAscending : sum.Pairwise (·.denom < ·.denom)
  aAscending : coinsA.Pairwise (·.denom < ·.denom)
  bAscending : coinsB.Pairwise (·.denom < ·.denom)
  below : ∀ s ∈ sum, ∀ c ∈ coinsA ++ coinsB, s.denom < c.denom

/-- One step of the merge keeps `MergeInv` when the coin it may append lies
above the sum and below every coin left. -/
theorem MergeInv.advance {sum coinsA coinsB restA restB : List (CoinOf A)} {coin : CoinOf A}
    {zero : Prop} [Decidable zero] (inv : MergeInv sum coinsA coinsB)
    (aAscending : restA.Pairwise (·.denom < ·.denom)) (bAscending : restB.Pairwise (·.denom < ·.denom))
    (subA : ∀ c ∈ restA, c ∈ coinsA) (subB : ∀ c ∈ restB, c ∈ coinsB)
    (aboveSum : ∀ s ∈ sum, s.denom < coin.denom)
    (belowRest : ∀ c ∈ restA ++ restB, coin.denom < c.denom) :
    MergeInv (if zero then sum else sum ++ [coin]) restA restB := by
  have stillBelow : ∀ s ∈ sum, ∀ c ∈ restA ++ restB, s.denom < c.denom := by
    intro s inSum c member
    apply inv.below s inSum c
    rcases List.mem_append.mp member with inA | inB
    · exact List.mem_append_left _ (subA c inA)
    · exact List.mem_append_right _ (subB c inB)
  split_ifs
  · exact ⟨inv.sumAscending, aAscending, bAscending, stillBelow⟩
  · refine ⟨List.pairwise_append.mpr ⟨inv.sumAscending, List.pairwise_singleton _ _, ?_⟩,
      aAscending, bAscending, ?_⟩
    · intro s inSum c isCoin
      rw [List.mem_singleton.mp isCoin]
      exact aboveSum s inSum
    · intro s member c inRest
      rcases List.mem_append.mp member with inSum | isCoin
      · exact stillBelow s inSum c inRest
      · rw [List.mem_singleton.mp isCoin]
        exact belowRest c inRest

/-- The final step: the sum with what is left of one set, zero coins removed. -/
theorem MergeInv.ascending_append {sum coins : List (CoinOf A)}
    (sumAscending : sum.Pairwise (·.denom < ·.denom)) (ascending : coins.Pairwise (·.denom < ·.denom))
    (below : ∀ s ∈ sum, ∀ c ∈ coins, s.denom < c.denom) :
    (sum ++ removeZero isZero coins).Pairwise (·.denom < ·.denom) :=
  List.pairwise_append.mpr ⟨sumAscending, ascending.filter _,
    fun s inSum c kept => below s inSum c (List.mem_of_mem_filter kept)⟩

variable (addKeepsDenom : ∀ a b r, addCoins a b = .ok r → r.denom = a.denom)
include addKeepsDenom

/-- The sum of ascending sets is ascending. -/
theorem safeAddLoop_ascending {sum coinsA coinsB res : List (CoinOf A)}
    (inv : MergeInv sum coinsA coinsB)
    (run : safeAddLoop isZero addCoins sum coinsA coinsB = .ok res) :
    res.Pairwise (·.denom < ·.denom) := by
  fun_induction safeAddLoop isZero addCoins sum coinsA coinsB with
  | case1 sum => rw [← Except.ok.inj run]; exact inv.sumAscending
  | case2 sum coinB restB =>
      rw [← Except.ok.inj run]
      exact MergeInv.ascending_append isZero inv.sumAscending inv.bAscending
        (fun s inSum c inB => inv.below s inSum c (by simpa using inB))
  | case3 sum coinA restA =>
      rw [← Except.ok.inj run]
      exact MergeInv.ascending_append isZero inv.sumAscending inv.aAscending
        (fun s inSum c inA => inv.below s inSum c (by simpa using inA))
  | case4 sum coinA restA coinB restB lt induction =>
      simp only [dite_eq_ite] at induction
      obtain ⟨aboveA, restAAscending⟩ := List.pairwise_cons.mp inv.aAscending
      obtain ⟨aboveB, _⟩ := List.pairwise_cons.mp inv.bAscending
      apply induction _ run
      apply inv.advance restAAscending inv.bAscending (fun c => List.mem_cons_of_mem _) (fun c => id)
      · exact fun s inSum => inv.below s inSum coinA (by simp)
      · intro c member
        rcases List.mem_append.mp member with inA | inB
        · exact aboveA c inA
        · rcases List.mem_cons.mp inB with rfl | inRestB
          · exact lt
          · exact lt_trans lt (aboveB c inRestB)
  | case5 sum coinA restA coinB restB notLt same induction =>
      obtain ⟨res', added, run⟩ := bind_eq_ok.mp run
      specialize induction res'
      simp only [dite_eq_ite] at induction
      have denom : res'.denom = coinA.denom := addKeepsDenom coinA coinB res' added
      obtain ⟨aboveA, restAAscending⟩ := List.pairwise_cons.mp inv.aAscending
      obtain ⟨aboveB, restBAscending⟩ := List.pairwise_cons.mp inv.bAscending
      apply induction _ run
      apply inv.advance restAAscending restBAscending (fun c => List.mem_cons_of_mem _)
        (fun c => List.mem_cons_of_mem _)
      · exact fun s inSum => denom ▸ inv.below s inSum coinA (by simp)
      · intro c member
        rw [denom]
        rcases List.mem_append.mp member with inA | inB
        · exact aboveA c inA
        · exact same ▸ aboveB c inB
  | case6 sum coinA restA coinB restB notLt notSame induction =>
      simp only [dite_eq_ite] at induction
      have gt : coinB.denom < coinA.denom := lt_of_le_of_ne (not_lt.mp notLt) (Ne.symm notSame)
      obtain ⟨aboveA, _⟩ := List.pairwise_cons.mp inv.aAscending
      obtain ⟨aboveB, restBAscending⟩ := List.pairwise_cons.mp inv.bAscending
      apply induction _ run
      apply inv.advance inv.aAscending restBAscending (fun c => id) (fun c => List.mem_cons_of_mem _)
      · exact fun s inSum => inv.below s inSum coinB (by simp)
      · intro c member
        rcases List.mem_append.mp member with inA | inB
        · rcases List.mem_cons.mp inA with rfl | inRestA
          · exact gt
          · exact lt_trans gt (aboveA c inRestA)
        · exact aboveB c inB

end MergeSpec

/-! ## `safeAdd` keeps `IsValid` on lower-case sets -/

section SafeAddValid

variable (isZero isPositive : A → Bool) (addCoins : CoinOf A → CoinOf A → Result (CoinOf A))
  (nonAscii : Char → Char)
  (addKeepsDenom : ∀ a b r, addCoins a b = .ok r → r.denom = a.denom)
  (addPositive : ∀ a b r, addCoins a b = .ok r →
    isPositive a.amount = true → isPositive b.amount = true → isPositive r.amount = true)
  (positiveNonzero : ∀ x, isPositive x = true → isZero x = false)

omit addCoins in
/-- A set of positive coins loses nothing to `removeZeroCoins`. -/
theorem removeZero_of_positive {coins : List (CoinOf A)}
    (positiveNonzero : ∀ x, isPositive x = true → isZero x = false)
    (positive : ∀ c ∈ coins, isPositive c.amount = true) : removeZero isZero coins = coins :=
  List.filter_eq_self.mpr fun c member => by simp [positiveNonzero _ (positive c member)]

include addKeepsDenom addPositive in
/-- A coin of the sum of two positive sets is positive and has the denom of a
coin of one of them. -/
theorem FromInputs.positive_denom {coinsA coinsB : List (CoinOf A)} {c : CoinOf A}
    (positive : ∀ x ∈ coinsA ++ coinsB, isPositive x.amount = true)
    (from_ : FromInputs addCoins coinsA coinsB c) :
    isPositive c.amount = true ∧ ∃ x ∈ coinsA ++ coinsB, x.denom = c.denom := by
  rcases from_ with inA | inB | ⟨a, inA, b, inB, _, added⟩
  · exact ⟨positive c (List.mem_append_left _ inA), c, List.mem_append_left _ inA, rfl⟩
  · exact ⟨positive c (List.mem_append_right _ inB), c, List.mem_append_right _ inB, rfl⟩
  · exact ⟨addPositive a b c added (positive a (List.mem_append_left _ inA))
      (positive b (List.mem_append_right _ inB)),
      a, List.mem_append_left _ inA, (addKeepsDenom a b c added).symm⟩

include addKeepsDenom addPositive positiveNonzero in
/-- The first coin of the sum of two positive sets has the denom of the first
coin of one of them: nothing the merge reads first is dropped. -/
theorem safeAdd_head {coinsA coinsB res : List (CoinOf A)}
    (positive : ∀ x ∈ coinsA ++ coinsB, isPositive x.amount = true)
    (added : safeAdd isZero addCoins coinsA coinsB = .ok res) :
    ∀ c ∈ res.head?, (∃ x ∈ coinsA.head?, x.denom = c.denom) ∨ ∃ x ∈ coinsB.head?, x.denom = c.denom := by
  have nonzero : ∀ x ∈ coinsA ++ coinsB, isZero x.amount = false :=
    fun x member => positiveNonzero _ (positive x member)
  intro c first
  match coinsA, coinsB with
  | [], [] =>
      rw [safeAdd, safeAddLoop_nil_nil, Except.ok.injEq] at added
      simp [← added] at first
  | [], coinB :: restB =>
      rw [safeAdd, safeAddLoop_nil_cons, Except.ok.injEq, List.nil_append,
        removeZero_of_positive isZero isPositive positiveNonzero (by simpa using positive)] at added
      simp only [← added, List.head?_cons, Option.mem_def, Option.some.injEq] at first
      exact .inr ⟨coinB, rfl, first ▸ rfl⟩
  | coinA :: restA, [] =>
      rw [safeAdd, safeAddLoop_cons_nil, Except.ok.injEq, List.nil_append,
        removeZero_of_positive isZero isPositive positiveNonzero (by simpa using positive)] at added
      simp only [← added, List.head?_cons, Option.mem_def, Option.some.injEq] at first
      exact .inl ⟨coinA, rfl, first ▸ rfl⟩
  | coinA :: restA, coinB :: restB =>
      rw [safeAdd] at added
      -- the first comparison decides which coin the sum starts with
      rcases lt_trichotomy coinA.denom coinB.denom with lt | same | gt
      · rw [safeAddLoop_lt _ _ _ _ _ _ _ lt, if_neg (by simp [nonzero coinA (by simp)])] at added
        obtain ⟨rest, rfl⟩ := safeAddLoop_prefix isZero addCoins added
        simp only [List.nil_append, List.singleton_append, List.head?_cons, Option.mem_def,
          Option.some.injEq] at first
        exact .inl ⟨coinA, rfl, first ▸ rfl⟩
      · rw [safeAddLoop_eq _ _ _ _ _ _ _ same] at added
        obtain ⟨res', sum, run⟩ := bind_eq_ok.mp added
        have positiveSum : isPositive res'.amount = true :=
          addPositive coinA coinB res' sum (positive coinA (by simp)) (positive coinB (by simp))
        rw [if_neg (by simp [positiveNonzero _ positiveSum])] at run
        obtain ⟨rest, rfl⟩ := safeAddLoop_prefix isZero addCoins run
        simp only [List.nil_append, List.singleton_append, List.head?_cons, Option.mem_def,
          Option.some.injEq] at first
        exact .inl ⟨coinA, rfl, by rw [← first, addKeepsDenom coinA coinB res' sum]⟩
      · rw [safeAddLoop_gt _ _ _ _ _ _ _ gt, if_neg (by simp [nonzero coinB (by simp)])] at added
        obtain ⟨rest, rfl⟩ := safeAddLoop_prefix isZero addCoins added
        simp only [List.nil_append, List.singleton_append, List.head?_cons, Option.mem_def,
          Option.some.injEq] at first
        exact .inr ⟨coinB, rfl, first ▸ rfl⟩

include addKeepsDenom addPositive positiveNonzero in
/-- The sum of two well-formed sets whose denoms are all lower case is well formed. -/
theorem wellFormed_safeAdd {coinsA coinsB res : List (CoinOf A)}
    (wellFormedA : WellFormed isPositive nonAscii coinsA)
    (wellFormedB : WellFormed isPositive nonAscii coinsB)
    (lowerCase : ∀ c ∈ coinsA ++ coinsB, stringsToLower nonAscii c.denom = c.denom)
    (added : safeAdd isZero addCoins coinsA coinsB = .ok res) :
    WellFormed isPositive nonAscii res := by
  have positive : ∀ x ∈ coinsA ++ coinsB, isPositive x.amount = true := by
    intro x member
    rcases List.mem_append.mp member with inA | inB
    · exact wellFormedA.positive x inA
    · exact wellFormedB.positive x inB
  have origin : ∀ c ∈ res, isPositive c.amount = true ∧ ∃ x ∈ coinsA ++ coinsB, x.denom = c.denom := by
    intro c member
    rcases safeAddLoop_origin isZero addCoins added c member with inSum | from_
    · simp at inSum
    · exact from_.positive_denom isPositive addCoins addKeepsDenom addPositive positive
  refine ⟨?_, fun c member => (origin c member).1, ?_, ?_⟩
  · apply safeAddLoop_ascending isZero addCoins addKeepsDenom _ added
    exact ⟨List.Pairwise.nil, wellFormedA.ascending, wellFormedB.ascending, by simp⟩
  · intro c first
    rcases safeAdd_head isZero isPositive addCoins addKeepsDenom addPositive positiveNonzero
        positive added c first with ⟨x, firstA, denom⟩ | ⟨x, firstB, denom⟩
    · exact denom ▸ wellFormedA.firstDenom x firstA
    · exact denom ▸ wellFormedB.firstDenom x firstB
  · intro c inTail
    obtain ⟨x, member, denom⟩ := (origin c (List.mem_of_mem_tail inTail)).2
    exact denom ▸ lowerCase x member

end SafeAddValid

end CoinOf

/-! ## `Coins` -/

/-- `Coin`. -/
abbrev Coin := CoinOf Int

/-- `Coins`. -/
abbrev Coins := List Coin

namespace Coin

/-- `Coin.Add`. -/
def add (coin coinB : Coin) : Result Coin :=
  if coin.denom ≠ coinB.denom then
    panicWith ("invalid coin denominations; " ++ coin.denom ++ ", " ++ coinB.denom)
  else do
    let amount ← SdkInt.add coin.amount coinB.amount
    pure ⟨coin.denom, amount⟩

/-- What `Coin.Add` returns when it does not panic. -/
theorem add_eq_ok {coin coinB res : Coin} (added : add coin coinB = .ok res) :
    res = ⟨coin.denom, coin.amount + coinB.amount⟩ := by
  unfold add at added
  split_ifs at added
  · exact absurd added (panicWith_ne_ok _ _)
  · obtain ⟨amount, sum, returned⟩ := bind_eq_ok.mp added
    rw [SdkInt.add_eq_ok sum] at returned
    exact (Except.ok.inj returned).symm

end Coin

namespace Coins

/-- `removeZeroCoins`. -/
def removeZeroCoins (coins : Coins) : Coins := CoinOf.removeZero SdkInt.isZero coins

/-- `Coins.safeAdd`. -/
def safeAdd (coins coinsB : Coins) : Result Coins := CoinOf.safeAdd SdkInt.isZero Coin.add coins coinsB

/-- `Coins.Add`, with the variadic `coinsB` as a slice. -/
def add (coins coinsB : Coins) : Result Coins := safeAdd coins coinsB

/-- `Coins.IsValid`. -/
def isValid (nonAscii : Char → Char) (coins : Coins) : Bool :=
  CoinOf.isValid SdkInt.isPositive nonAscii coins

/-- `Coins.Empty`. -/
def empty (coins : Coins) : Bool := coins.length = 0

/-- `Coins.IsAllPositive`: at least one coin, and every amount positive. -/
def isAllPositive (coins : Coins) : Bool :=
  if coins.length = 0 then false else coins.all fun coin => SdkInt.isPositive coin.amount

/-- `IsAllPositive` asks nothing of a non-empty valid set. -/
theorem isAllPositive_of_isValid (nonAscii : Char → Char) {coins : Coins} (nonempty : coins ≠ [])
    (valid : isValid nonAscii coins = true) : isAllPositive coins = true := by
  rw [isValid, CoinOf.isValid_iff] at valid
  rw [isAllPositive, if_neg (by simpa using nonempty)]
  exact List.all_eq_true.mpr fun coin member => valid.positive coin member

end Coins

end CoreSdk.Types
