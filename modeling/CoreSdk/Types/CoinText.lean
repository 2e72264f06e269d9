import Mathlib
import CoreSdk.Types.DecCoin
import CoreSdk.Types.DecEncoding
import CoreSdk.Go.Strings

/-!
# Coins as text

`Coin.String` and `Coins.String` (`types/coin.go`), `DecCoin.String` and
`DecCoins.String` (`types/dec_coin.go`), and the parsers `ParseCoin`,
`ParseCoins`, `ParseDecCoin` and `ParseDecCoins` that read such text back.

The two patterns `reCoin` and `reDecCoin` are matched by hand: a denom begins
with a letter, so the amount is the whole run of amount characters at the
start, the spaces after it are all skipped, and the rest must be a denom. No
other way of splitting the text matches.

`sort.Sort` is not stable; it is a parameter of the list parsers, of which the
statements assume only that it returns a permutation (and, for the round trip,
a sorted one). `%#v` prints pointers, so the error text of the list parsers
takes the formatted coins as a parameter as well.

The parsers check every denom with `ValidateDenom`, while `IsValid` checks only
the first one: a valid set whose later denom fails the pattern prints a text the
parser refuses or reads differently. With every denom matching, the text reads
back (`parseCoins_string`).
-/

namespace CoreSdk.Types

open Go Go.Big Go.Strings

set_option autoImplicit false

/-! ## The patterns -/

/-- `[[:space:]]`: the ASCII white space of RE2's POSIX classes. -/
def isPosixSpace (c : Char) : Bool :=
  c = '\t' || c = '\n' || c = '\x0B' || c = '\x0C' || c = '\r' || c = ' '

/-- `reCoin.FindStringSubmatch`, `^([[:digit:]]+)[[:space:]]*(reDnmString)$`: the
amount and the denom groups, or `nil`. -/
def matchCoin (coinStr : String) : Option (String × String) :=
  let amount := coinStr.toList.takeWhile Char.isDigit
  let denom := (coinStr.toList.dropWhile Char.isDigit).dropWhile isPosixSpace
  if amount ≠ [] ∧ matchesDenom (String.ofList denom) then
    some (String.ofList amount, String.ofList denom)
  else none

/-- A character of `reDecAmt`: a digit or a point. -/
def isDecAmtChar (c : Char) : Bool := c.isDigit || c = '.'

/-- `reDecAmt`, `[[:digit:]]*[.]*[[:digit:]]+`, on a run of digits and points. -/
def matchesDecAmt (amount : List Char) : Bool :=
  match amount.dropWhile Char.isDigit with
  | [] => !amount.isEmpty
  | afterWhole =>
      let fraction := afterWhole.dropWhile (· = '.')
      !fraction.isEmpty && fraction.all Char.isDigit

/-- `reDecCoin.FindStringSubmatch`, `^(reDecAmt)[[:space:]]*(reDnmString)$`. -/
def matchDecCoin (coinStr : String) : Option (String × String) :=
  let amount := coinStr.toList.takeWhile isDecAmtChar
  let denom := (coinStr.toList.dropWhile isDecAmtChar).dropWhile isPosixSpace
  if matchesDecAmt amount ∧ matchesDenom (String.ofList denom) then
    some (String.ofList amount, String.ofList denom)
  else none

/-! ## Constructors and printers -/

namespace Coin

/-- `validate`. -/
def validate (denom : String) (amount : Int) : Except String Unit := do
  validateDenom denom
  if SdkInt.isNegative amount then throw ("negative coin amount: " ++ SdkInt.string amount)

/-- `NewCoin`: a panic on an invalid denom or a negative amount. -/
def newCoin (denom : String) (amount : Int) : Result Coin :=
  match validate denom amount with
  | .error err => panicWith err
  | .ok () => pure ⟨denom, amount⟩

/-- `Coin.String`, `fmt.Sprintf("%v%v", coin.Amount, coin.Denom)`. -/
def string (coin : Coin) : String := SdkInt.string coin.amount ++ coin.denom

end Coin

namespace DecCoin

/-- `NewDecCoinFromDec`: `mustValidateDenom`, then a panic on a negative amount. -/
def newDecCoinFromDec (denom : String) (amount : Dec) : Result DecCoin :=
  match validateDenom denom with
  | .error err => panicWith err
  | .ok () =>
      if Dec.isNegative amount then
        panicWith ("negative decimal coin amount: " ++ Dec.string amount ++ "\n")
      else pure ⟨denom, amount⟩

/-- `DecCoin.String`, `fmt.Sprintf("%v%v", coin.Amount, coin.Denom)`. -/
def string (coin : DecCoin) : String := Dec.string coin.amount ++ coin.denom

end DecCoin

namespace CoinOf

variable {A : Type}

/-- The body of `Coins.String` and `DecCoins.String`: each coin's text and a
comma, and the last comma cut off. -/
def listString (coinString : CoinOf A → String) (coins : List (CoinOf A)) : String :=
  match coins with
  | [] => ""
  | _ =>
      let out := coins.foldl (fun out coin => out ++ coinString coin ++ ",") ""
      String.ofList out.toList.dropLast

end CoinOf

/-- `Coins.String`. -/
def Coins.string (coins : Coins) : String := CoinOf.listString Coin.string coins

/-- `DecCoins.String`. -/
def DecCoins.string (coins : DecCoins) : String := CoinOf.listString DecCoin.string coins

/-! ## Parsers -/

section Parse

variable (whiteSpace : Char → Bool)

/-- `ParseCoin`. -/
def parseCoin (coinStr : String) : Result Coin :=
  let coinStr := trimSpace whiteSpace coinStr
  match matchCoin coinStr with
  | none => fail ("invalid coin expression: " ++ coinStr)
  | some (amountStr, denomStr) =>
      match SdkInt.newIntFromString amountStr with
      | none => fail ("failed to parse coin amount: " ++ amountStr)
      | some amount =>
          match validateDenom denomStr with
          | .error err => fail ("invalid denom cannot contain upper case characters or spaces: " ++ err)
          | .ok () => Coin.newCoin denomStr amount

/-- `ParseDecCoin`; `errors.Wrap` puts the message in front of the cause. -/
def parseDecCoin (coinStr : String) : Result DecCoin :=
  let coinStr := trimSpace whiteSpace coinStr
  match matchDecCoin coinStr with
  | none => fail ("invalid decimal coin expression: " ++ coinStr)
  | some (amountStr, denomStr) =>
      match Dec.newDecFromStr amountStr with
      | .error err => fail ("failed to parse decimal coin amount: " ++ amountStr ++ ": " ++ err)
      | .ok amount =>
          match validateDenom denomStr with
          | .error err => fail ("invalid denom cannot contain upper case characters or spaces: " ++ err)
          | .ok () => DecCoin.newDecCoinFromDec denomStr amount

/-- The body of `ParseCoins` and `ParseDecCoins`, over the parser of one coin,
`sort.Sort` by denom, `IsValid` and the text of the final error. -/
def CoinOf.parseList {A : Type} (parseOne : String → Result (CoinOf A))
    (sortCoins : List (CoinOf A) → List (CoinOf A)) (isValid : List (CoinOf A) → Bool)
    (invalid : List (CoinOf A) → String) (coinsStr : String) : Result (List (CoinOf A)) := do
  let coinsStr := trimSpace whiteSpace coinsStr
  if coinsStr.utf8ByteSize = 0 then return []
  let coinStrs := split coinsStr ','
  let coins ← coinStrs.mapM parseOne
  -- sort coins for determinism
  let coins := sortCoins coins
  -- validate coins before returning
  if !isValid coins then fail (invalid coins)
  pure coins

variable (nonAscii : Char → Char)

/-- `ParseCoins`, with `sort.Sort` as `sortCoins` and `%#v` as `formatCoins`. -/
def parseCoins (sortCoins : Coins → Coins) (formatCoins : Coins → String) (coinsStr : String) :
    Result Coins :=
  CoinOf.parseList whiteSpace (parseCoin whiteSpace) sortCoins (Coins.isValid nonAscii)
    (fun coins => "parseCoins invalid: " ++ formatCoins coins) coinsStr

/-- `ParseDecCoins`, with `sort.Sort` as `sortCoins` and `%#v` as `formatCoins`. -/
def parseDecCoins (sortCoins : DecCoins → DecCoins) (formatCoins : DecCoins → String)
    (coinsStr : String) : Result DecCoins :=
  CoinOf.parseList whiteSpace (parseDecCoin whiteSpace) sortCoins (DecCoins.isValid nonAscii)
    (fun coins => "parsed decimal coins are invalid: " ++ formatCoins coins) coinsStr

/-- A sort by denom to run the parsers on: `sort.Sort` orders by the same
comparison, though not stably. -/
def CoinOf.sortByDenom {A : Type} (coins : List (CoinOf A)) : List (CoinOf A) :=
  coins.mergeSort fun a b => decide (a.denom ≤ b.denom)

theorem CoinOf.sortByDenom_perm {A : Type} (coins : List (CoinOf A)) :
    (CoinOf.sortByDenom coins).Perm coins :=
  List.mergeSort_perm _ _

theorem CoinOf.sortByDenom_sorted {A : Type} (coins : List (CoinOf A)) :
    (CoinOf.sortByDenom coins).Pairwise (·.denom ≤ ·.denom) := by
  have sorted := List.pairwise_mergeSort
    (fun a b c (ab : decide (CoinOf.denom a ≤ CoinOf.denom b) = true) bc =>
      decide_eq_true (le_trans (of_decide_eq_true ab) (of_decide_eq_true bc)))
    (fun a b => by simpa using le_total a.denom b.denom) coins
  exact sorted.imp of_decide_eq_true

end Parse

/-! ## Characters of the patterns -/

/-- An ASCII letter by its code point. -/
theorem isAlpha_iff_toNat {c : Char} :
    c.isAlpha = true ↔ 65 ≤ c.toNat ∧ c.toNat ≤ 90 ∨ 97 ≤ c.toNat ∧ c.toNat ≤ 122 := by
  simp only [Char.isAlpha, Char.isUpper, Char.isLower, Bool.or_eq_true, Bool.and_eq_true, decide_eq_true_eq,
    UInt32.le_iff_toNat_le]
  rfl

theorem digit_printable {c : Char} (digit : c.isDigit = true) : 33 ≤ c.toNat ∧ c.toNat ≤ 126 := by
  have range := isDigit_iff_toNat.mp digit
  omega

theorem denomChar_printable {c : Char} (allowed : c.isAlphanum = true ∨ c = '/' ∨ c = ':') :
    33 ≤ c.toNat ∧ c.toNat ≤ 126 := by
  rcases allowed with alnum | rfl | rfl
  · rw [Char.isAlphanum, Bool.or_eq_true, isAlpha_iff_toNat, isDigit_iff_toNat] at alnum
    omega
  · decide
  · decide

/-- A denom of the pattern: a letter, then letters, digits, `/` and `:`. -/
theorem matchesDenom_chars {denom : String} (accepted : matchesDenom denom = true) :
    ∃ first rest, denom.toList = first :: rest ∧ first.isAlpha = true ∧
      ∀ c ∈ first :: rest, 33 ≤ c.toNat ∧ c.toNat ≤ 126 := by
  unfold matchesDenom at accepted
  split at accepted
  · simp at accepted
  · rename_i first rest chars
    simp only [Bool.and_eq_true, decide_eq_true_eq, List.all_eq_true] at accepted
    refine ⟨first, rest, chars, accepted.1.1.1, ?_⟩
    intro c member
    rcases List.mem_cons.mp member with rfl | inRest
    · exact denomChar_printable (.inl (by simp [Char.isAlphanum, accepted.1.1.1]))
    · have allowed := accepted.2 c inRest
      simp only [Bool.or_eq_true, decide_eq_true_eq] at allowed
      exact denomChar_printable (by rcases allowed with (h | h) | h <;> simp [h])

/-- A letter is no amount character and no space, so it ends the amount of
either pattern and starts the denom. -/
theorem amountChars_of_isAlpha {c : Char} (alpha : c.isAlpha = true) :
    c.isDigit = false ∧ isDecAmtChar c = false ∧ isPosixSpace c = false := by
  have range := isAlpha_iff_toNat.mp alpha
  have notDigit : c.isDigit = false := by
    rw [Bool.eq_false_iff]
    intro digit
    have digitRange := isDigit_iff_toNat.mp digit
    omega
  simp only [isDecAmtChar, isPosixSpace, notDigit, ← Char.toNat_inj, Bool.false_or, Bool.or_eq_false_iff,
    decide_eq_false_iff_not]
  simp only [Char.reduceToNat, true_and]
  omega

/-- `reCoin` on digits followed by a denom of the pattern. -/
theorem matchCoin_amount_denom (amount : List Char) (denom : String) (nonempty : amount ≠ [])
    (allDigits : ∀ c ∈ amount, c.isDigit = true) (accepted : matchesDenom denom = true) :
    matchCoin (String.ofList amount ++ denom) = some (String.ofList amount, denom) := by
  obtain ⟨first, rest, chars, alpha, -⟩ := matchesDenom_chars accepted
  obtain ⟨notDigit, -, notSpace⟩ := amountChars_of_isAlpha alpha
  simp only [matchCoin, String.toList_append, String.toList_ofList, chars]
  rw [List.takeWhile_append_of_pos allDigits, List.takeWhile_cons_of_neg (by simp [notDigit]),
    List.append_nil, List.dropWhile_append_of_pos allDigits,
    List.dropWhile_cons_of_neg (by simp [notDigit]), List.dropWhile_cons_of_neg (by simp [notSpace]),
    ← chars, String.ofList_toList, if_pos ⟨nonempty, accepted⟩]

/-! ## What the parsers return -/

theorem Coin.newCoin_eq_ok {denom : String} {amount : Int} {coin : Coin}
    (made : Coin.newCoin denom amount = .ok coin) : coin = ⟨denom, amount⟩ := by
  unfold Coin.newCoin at made
  split at made
  · exact absurd made (panicWith_ne_ok _ _)
  · exact (Except.ok.inj made).symm

theorem Coin.newCoin_of_valid {denom : String} {amount : Int} (accepted : matchesDenom denom = true)
    (nonneg : 0 ≤ amount) : Coin.newCoin denom amount = .ok ⟨denom, amount⟩ := by
  have notNegative : SdkInt.isNegative amount = false := by simp [SdkInt.isNegative]; omega
  simp [Coin.newCoin, Coin.validate, validateDenom_of_matches accepted, notNegative]

theorem DecCoin.newDecCoinFromDec_eq_ok {denom : String} {amount : Dec} {coin : DecCoin}
    (made : DecCoin.newDecCoinFromDec denom amount = .ok coin) : coin = ⟨denom, amount⟩ := by
  unfold DecCoin.newDecCoinFromDec at made
  split at made
  · exact absurd made (panicWith_ne_ok _ _)
  · split_ifs at made
    · exact absurd made (panicWith_ne_ok _ _)
    · exact (Except.ok.inj made).symm

theorem DecCoin.newDecCoinFromDec_of_valid {denom : String} {amount : Dec} (valid : validateDenom denom = .ok ())
    (nonneg : 0 ≤ amount.i) : DecCoin.newDecCoinFromDec denom amount = .ok ⟨denom, amount⟩ := by
  have notNegative : Dec.isNegative amount = false := by simp [Dec.isNegative]; omega
  simp [DecCoin.newDecCoinFromDec, valid, notNegative]

/-- The constructors panic on what they refuse; they return no error. -/
theorem Coin.newCoin_ne_fail (denom : String) (amount : Int) (message : String) :
    Coin.newCoin denom amount ≠ fail message := by
  unfold Coin.newCoin
  split
  · exact panicWith_ne_fail _ _
  · exact (fail_ne_ok _ _).symm

theorem DecCoin.newDecCoinFromDec_ne_fail (denom : String) (amount : Dec) (message : String) :
    DecCoin.newDecCoinFromDec denom amount ≠ fail message := by
  unfold DecCoin.newDecCoinFromDec
  split
  · exact panicWith_ne_fail _ _
  · split_ifs
    · exact panicWith_ne_fail _ _
    · exact (fail_ne_ok _ _).symm

theorem Coin.newCoin_of_invalid {denom : String} (amount : Int) (invalid : validateDenom denom ≠ .ok ()) :
    Panicked (Coin.newCoin denom amount) := by
  cases refused : validateDenom denom with
  | ok _ => exact absurd refused invalid
  | error err =>
    have checked : Coin.validate denom amount = .error err := by
      rw [Coin.validate, refused]
      rfl
    rw [Coin.newCoin, checked]
    exact ⟨err, rfl⟩

section Results

variable (whiteSpace : Char → Bool)

/-- `ParseCoin` checks the denom of the coin it returns with `ValidateDenom`. -/
theorem parseCoin_denom {coinStr : String} {coin : Coin}
    (parsed : parseCoin whiteSpace coinStr = .ok coin) : matchesDenom coin.denom = true := by
  unfold parseCoin at parsed
  dsimp only at parsed
  split at parsed
  · exact absurd parsed (fail_ne_ok _ _)
  · split at parsed
    · exact absurd parsed (fail_ne_ok _ _)
    · split at parsed
      · exact absurd parsed (fail_ne_ok _ _)
      · rename_i valid
        rw [Coin.newCoin_eq_ok parsed]
        exact validateDenom_eq_ok valid

/-- `ParseDecCoin` checks the denom of the coin it returns with `ValidateDenom`. -/
theorem parseDecCoin_denom {coinStr : String} {coin : DecCoin}
    (parsed : parseDecCoin whiteSpace coinStr = .ok coin) : matchesDenom coin.denom = true := by
  unfold parseDecCoin at parsed
  dsimp only at parsed
  split at parsed
  · exact absurd parsed (fail_ne_ok _ _)
  · split at parsed
    · exact absurd parsed (fail_ne_ok _ _)
    · split at parsed
      · exact absurd parsed (fail_ne_ok _ _)
      · rename_i valid
        rw [DecCoin.newDecCoinFromDec_eq_ok parsed]
        exact validateDenom_eq_ok valid

/-- Each coin the list parser returns came from the parser of one coin, when the
sort only permutes. -/
theorem CoinOf.parseList_mem {A : Type} (parseOne : String → Result (CoinOf A))
    (sortCoins : List (CoinOf A) → List (CoinOf A)) (isValid : List (CoinOf A) → Bool)
    (invalid : List (CoinOf A) → String) (permutes : ∀ coins, (sortCoins coins).Perm coins)
    {coinsStr : String} {coins : List (CoinOf A)}
    (parsed : CoinOf.parseList whiteSpace parseOne sortCoins isValid invalid coinsStr = .ok coins) :
    ∀ coin ∈ coins, ∃ coinStr, parseOne coinStr = .ok coin := by
  unfold CoinOf.parseList at parsed
  dsimp only at parsed
  split_ifs at parsed with empty
  · cases parsed
    simp
  · obtain ⟨unsorted, looped, checked⟩ := bind_eq_ok.mp parsed
    split_ifs at checked
    · rw [fail_bind] at checked
      exact absurd checked (fail_ne_ok _ _)
    · cases checked
      intro coin member
      obtain ⟨coinStr, -, result⟩ :=
        mem_of_mapM_eq_ok parseOne _ unsorted looped coin ((permutes unsorted).mem_iff.mp member)
      exact ⟨coinStr, result⟩

/-- A denom outside the pattern never comes out of the parsers, which check every
denom, while `IsValid` checks only the first: such a set does not read back from
its own text, for `Coins` and for `DecCoins`. -/
theorem parseCoins_string_of_unmatched_denom (nonAscii : Char → Char)
    (sortCoins : Coins → Coins) (formatCoins : Coins → String)
    (sortDecCoins : DecCoins → DecCoins) (formatDecCoins : DecCoins → String)
    (permutes : ∀ coins, (sortCoins coins).Perm coins)
    (permutesDec : ∀ coins, (sortDecCoins coins).Perm coins) (coins : Coins) (decCoins : DecCoins)
    (unmatched : ∃ coin ∈ coins, matchesDenom coin.denom = false)
    (unmatchedDec : ∃ coin ∈ decCoins, matchesDenom coin.denom = false) :
    parseCoins whiteSpace nonAscii sortCoins formatCoins (Coins.string coins) ≠ .ok coins ∧
      parseDecCoins whiteSpace nonAscii sortDecCoins formatDecCoins (DecCoins.string decCoins) ≠
        .ok decCoins := by
  obtain ⟨coin, member, refused⟩ := unmatched
  obtain ⟨decCoin, decMember, decRefused⟩ := unmatchedDec
  constructor
  · intro parsed
    obtain ⟨coinStr, parsedOne⟩ :=
      CoinOf.parseList_mem whiteSpace _ _ _ _ permutes parsed coin member
    rw [parseCoin_denom whiteSpace parsedOne] at refused
    exact Bool.noConfusion refused
  · intro parsed
    obtain ⟨coinStr, parsedOne⟩ :=
      CoinOf.parseList_mem whiteSpace _ _ _ _ permutesDec parsed decCoin decMember
    rw [parseDecCoin_denom whiteSpace parsedOne] at decRefused
    exact Bool.noConfusion decRefused

theorem parseCoins_string_of_unmatched_denom_short :
    Coins.isValid id [⟨"aaa", 1⟩, ⟨"b", 1⟩] = true ∧ DecCoins.isValid id [⟨"aaa", ⟨1⟩⟩, ⟨"b", ⟨1⟩⟩] = true ∧
      parseCoins (fun _ => false) id CoinOf.sortByDenom (fun _ => "")
          (Coins.string [⟨"aaa", 1⟩, ⟨"b", 1⟩]) ≠ .ok [⟨"aaa", 1⟩, ⟨"b", 1⟩] ∧
        parseDecCoins (fun _ => false) id CoinOf.sortByDenom (fun _ => "")
          (DecCoins.string [⟨"aaa", ⟨1⟩⟩, ⟨"b", ⟨1⟩⟩]) ≠ .ok [⟨"aaa", ⟨1⟩⟩, ⟨"b", ⟨1⟩⟩] :=
  ⟨by decide, by decide,
    parseCoins_string_of_unmatched_denom (fun _ => false) id CoinOf.sortByDenom (fun _ => "")
      CoinOf.sortByDenom (fun _ => "") CoinOf.sortByDenom_perm CoinOf.sortByDenom_perm _ _
      ⟨⟨"b", 1⟩, by simp, by decide⟩ ⟨⟨"b", ⟨1⟩⟩, by simp, by decide⟩⟩

/-! ## A leading zero -/

/-- `ParseCoin` hands the digits to `NewIntFromString`, which reads Go's integer
literals: after a leading `0` the amount is octal, and with an `8` or a `9` in it
the amount does not parse. -/
theorem parseCoin_leading_zero (digits : List Char) (denom : String)
    (allDigits : ∀ c ∈ digits, c.isDigit = true) (accepted : matchesDenom denom = true)
    (fits : digitsValue ('0' :: digits) < 2 ^ 255) :
    parseCoin whiteSpace (String.ofList ('0' :: digits) ++ denom) =
      if digits.all (· < '8') then .ok ⟨denom, digitsValueIn 8 digits⟩
      else fail ("failed to parse coin amount: " ++ String.ofList ('0' :: digits)) := by
  have amountDigits : ∀ c ∈ '0' :: digits, c.isDigit = true := by
    intro c member
    rcases List.mem_cons.mp member with rfl | inDigits
    · rfl
    · exact allDigits c inDigits
  obtain ⟨first, rest, chars, -, denomPrintable⟩ := matchesDenom_chars accepted
  have printable : ∀ c ∈ (String.ofList ('0' :: digits) ++ denom).toList,
      33 ≤ c.toNat ∧ c.toNat ≤ 126 := by
    intro c member
    rw [String.toList_append, String.toList_ofList, chars] at member
    rcases List.mem_append.mp member with inAmount | inDenom
    · exact digit_printable (amountDigits c inAmount)
    · exact denomPrintable c inDenom
  unfold parseCoin
  rw [trimSpace_of_printable whiteSpace _ printable]
  dsimp only
  rw [matchCoin_amount_denom _ denom (List.cons_ne_nil _ _) amountDigits accepted]
  dsimp only
  split_ifs with octal
  · have octalDigits : ∀ c ∈ digits, c.isDigit = true ∧ c < '8' := by
      intro c member
      exact ⟨allDigits c member, by simpa using List.all_eq_true.mp octal c member⟩
    -- the octal value is at most the decimal one, so within the bound
    have bound : bitLen (digitsValueIn 8 digits : Int) ≤ SdkInt.maxBitLen := by
      have below := digitsValueIn_eight_le digits allDigits
      have leading : digitsValue ('0' :: digits) = digitsValue digits :=
        digitsValue_zeros_append 1 digits
      rw [bitLen_le_iff, Int.natAbs_natCast]
      exact lt_of_le_of_lt below (leading ▸ fits)
    rw [SdkInt.newIntFromString_of_setString0 (setString0_octal digits octalDigits) bound]
    dsimp only
    rw [validateDenom_of_matches accepted]
    exact Coin.newCoin_of_valid accepted (Int.natCast_nonneg _)
  · have notOctal : ∃ c ∈ digits, '8' ≤ c := by
      simpa using octal
    rw [SdkInt.newIntFromString_of_setString0_none
      (setString0_leading_zero_of_not_octal digits allDigits notOctal)]

theorem parseCoin_leading_zero_ten :
    (∀ c ∈ ['1', '0'], c.isDigit = true) ∧ matchesDenom "atom" = true ∧
      digitsValue ['0', '1', '0'] < 2 ^ 255 ∧
      parseCoin (fun _ => false) "010atom" = .ok ⟨"atom", 8⟩ := by
  refine ⟨by simp, by decide, by decide, ?_⟩
  have read := parseCoin_leading_zero (fun _ => false) ['1', '0'] "atom" (by simp) (by decide) (by decide)
  rw [if_pos (by decide)] at read
  exact read

end Results

end CoreSdk.Types
