import Mathlib.Data.Nat.Size
import Mathlib.Data.Nat.Digits.Lemmas
import Mathlib.Data.String.Basic
import Mathlib.Data.List.TakeWhile
import CoreSdk.Go.Runtime

/-!
# Big integers

The parts of Go's `math/big` that the models read. A non-nil `*big.Int` is a
Lean `Int`; the nil pointer is not a value of the models.

Text is a Lean `String`. The decimal text `Text(10)` writes and `SetString(s, 10)`
reads is ASCII, so its bytes and its characters are the same; `setString_text`
is the round trip between the two. `SetString(s, 0)` reads Go's syntax for
integer literals instead: a leading `0` makes the rest octal (`setString0_octal`),
while the text `Text(10)` writes has no such zero (`setString0_text`).
-/

namespace Go.Big

set_option autoImplicit false

/-- `(*big.Int).BitLen`: the length of the absolute value in bits. -/
def bitLen (x : Int) : Nat := x.natAbs.size

theorem bitLen_le_iff (x : Int) (n : Nat) : bitLen x ≤ n ↔ x.natAbs < 2 ^ n :=
  Nat.size_le

/-- The bit length from bounds on the absolute value. -/
theorem bitLen_eq_of_bounds (x : Int) (n : Nat) (lower : 2 ^ n ≤ x.natAbs)
    (upper : x.natAbs < 2 ^ (n + 1)) : bitLen x = n + 1 := by
  have atMost : bitLen x ≤ n + 1 := (bitLen_le_iff x (n + 1)).mpr upper
  have above : n < bitLen x := Nat.lt_size.mpr lower
  omega

/-- Shifting left by `k` adds `k` bits. -/
theorem bitLen_natCast_mul_two_pow (m k : Nat) (nonzero : m ≠ 0) :
    bitLen ((m * 2 ^ k : Nat) : Int) = bitLen (m : Int) + k := by
  rw [bitLen, bitLen, Int.natAbs_natCast, Int.natAbs_natCast, ← Nat.shiftLeft_eq,
    Nat.size_shiftLeft nonzero]

theorem bitLen_two_pow (k : Nat) : bitLen ((2 ^ k : Nat) : Int) = k + 1 := by
  rw [bitLen, Int.natAbs_natCast, Nat.size_pow]

/-! ## Decimal text -/

/-- `(*big.Int).Text(10)`, which `String` and `MarshalText` return as well: a
minus sign for a negative value, then the decimal digits of the absolute value. -/
def text (x : Int) : String :=
  String.ofList ((if x < 0 then ['-'] else []) ++ Nat.toDigits 10 x.natAbs)

/-- `scanSign`. -/
def scanSign (s : List Char) : Bool × List Char :=
  match s with
  | c :: rest => if c = '-' then (true, rest) else if c = '+' then (false, rest) else (false, s)
  | [] => (false, [])

/-- The value of a run of decimal digits, accumulated digit by digit as `nat.scan` does. -/
def digitsValue (digits : List Char) : Nat :=
  digits.foldl (fun acc c => 10 * acc + (c.toNat - '0'.toNat)) 0

/-- `(*big.Int).SetString(s, 10)`: a sign, then at least one decimal digit, and
nothing after them. -/
def setString (s : String) : Option Int :=
  let (neg, digits) := scanSign s.toList
  if !digits.isEmpty && digits.all Char.isDigit then
    some (if neg then -(digitsValue digits : Int) else digitsValue digits)
  else none

theorem digitChar_toNat (d : Nat) (digit : d < 10) : (Nat.digitChar d).toNat = '0'.toNat + d := by
  have table : ∀ d < 10, (Nat.digitChar d).toNat = '0'.toNat + d := by decide
  exact table d digit

theorem digitsValue_append_singleton (digits : List Char) (c : Char) :
    digitsValue (digits ++ [c]) = 10 * digitsValue digits + (c.toNat - '0'.toNat) := by
  simp [digitsValue, List.foldl_append]

/-- Leading zeros do not change the value. -/
theorem digitsValue_zeros_append (k : Nat) (digits : List Char) :
    digitsValue (List.replicate k '0' ++ digits) = digitsValue digits := by
  have zeros : ∀ k, (List.replicate k '0').foldl (fun acc c => 10 * acc + (c.toNat - '0'.toNat)) 0 = 0 := by
    intro k
    induction k with
    | zero => rfl
    | succ k induction => rw [List.replicate_succ', List.foldl_append, induction]; rfl
  rw [digitsValue, List.foldl_append, zeros]
  rfl

/-- Trailing zeros scale the value. -/
theorem digitsValue_append_zeros (digits : List Char) (k : Nat) :
    digitsValue (digits ++ List.replicate k '0') = digitsValue digits * 10 ^ k := by
  induction k with
  | zero => simp
  | succ k induction =>
      rw [List.replicate_succ', ← List.append_assoc, digitsValue_append_singleton, induction]
      simp only [Char.reduceToNat, Nat.sub_self, Nat.add_zero, Nat.pow_succ]
      rw [Nat.mul_comm (10 ^ k) 10, Nat.mul_left_comm]

theorem digitsValue_toDigits (n : Nat) : digitsValue (Nat.toDigits 10 n) = n := by
  induction n using Nat.strongRecOn with
  | ind n induction =>
      by_cases small : n < 10
      · rw [Nat.toDigits_of_lt_base small, digitsValue]
        simp [digitChar_toNat n small]
      · -- the last digit is split off, the rest are the digits of `n / 10`
        have split : Nat.toDigits 10 n = Nat.toDigits 10 (n / 10) ++ [Nat.digitChar (n % 10)] := by
          rw [← Nat.toDigits_of_lt_base (Nat.mod_lt n (by decide)),
            Nat.toDigits_append_toDigits (by decide) (by omega) (Nat.mod_lt n (by decide)),
            Nat.div_add_mod]
        rw [split, digitsValue_append_singleton, induction (n / 10) (by omega),
          digitChar_toNat _ (Nat.mod_lt n (by decide))]
        omega

theorem isDigit_of_mem_toDigits {n : Nat} {c : Char} (member : c ∈ Nat.toDigits 10 n) :
    c.isDigit = true :=
  Nat.isDigit_of_mem_toDigits (by decide) (by decide) member

/-- A decimal digit by its code point. -/
theorem isDigit_iff_toNat {c : Char} : c.isDigit = true ↔ 48 ≤ c.toNat ∧ c.toNat ≤ 57 := by
  simp only [Char.isDigit, Bool.and_eq_true, decide_eq_true_eq, UInt32.le_iff_toNat_le]
  rfl

theorem utf8Size_of_isDigit {c : Char} (digit : c.isDigit = true) : c.utf8Size = 1 := by
  apply Char.utf8Size_eq_one_iff.mpr
  have upper : c.toNat ≤ 57 := (isDigit_iff_toNat.mp digit).2
  exact UInt32.le_iff_toNat_le.mpr (by simpa using Nat.le_trans upper (by decide))

/-- A run of decimal digits has one byte a digit. -/
theorem utf8ByteSize_of_digits (digits : List Char) (allDigits : ∀ c ∈ digits, c.isDigit = true) :
    (String.ofList digits).utf8ByteSize = digits.length := by
  rw [String.utf8ByteSize_ofList]
  induction digits with
  | nil => rfl
  | cons c rest induction =>
      rw [String.utf8Len_cons, induction fun c inRest => allDigits c (List.mem_cons_of_mem _ inRest),
        utf8Size_of_isDigit (allDigits c List.mem_cons_self), List.length_cons]

theorem scanSign_of_isDigit (c : Char) (rest : List Char) (digit : c.isDigit = true) :
    scanSign (c :: rest) = (false, c :: rest) := by
  have notMinus : c ≠ '-' := by rintro rfl; exact absurd digit (by decide)
  have notPlus : c ≠ '+' := by rintro rfl; exact absurd digit (by decide)
  simp [scanSign, notMinus, notPlus]

/-- `SetString(s, 10)` reads a run of digits, whatever zeros it starts with. -/
theorem setString_of_digits (digits : List Char) (nonempty : digits ≠ [])
    (allDigits : ∀ c ∈ digits, c.isDigit = true) :
    setString (String.ofList digits) = some (digitsValue digits : Int) := by
  obtain ⟨c, rest, rfl⟩ := List.exists_cons_of_ne_nil nonempty
  rw [setString, String.toList_ofList, scanSign_of_isDigit c rest (allDigits c List.mem_cons_self)]
  simp only [List.isEmpty_cons, Bool.not_false, Bool.true_and, List.all_eq_true]
  rw [if_pos allDigits]
  rfl

theorem setString_neg_of_digits (digits : List Char) (nonempty : digits ≠ [])
    (allDigits : ∀ c ∈ digits, c.isDigit = true) :
    setString (String.ofList ('-' :: digits)) = some (-(digitsValue digits : Int)) := by
  have notEmpty : digits.isEmpty = false := List.isEmpty_eq_false_iff.mpr nonempty
  simp only [setString, String.toList_ofList, scanSign, if_true, notEmpty, Bool.not_false,
    Bool.true_and, List.all_eq_true]
  rw [if_pos allDigits]

/-- `scanSign` also takes a plus sign. -/
theorem setString_plus_of_digits (digits : List Char) (nonempty : digits ≠ [])
    (allDigits : ∀ c ∈ digits, c.isDigit = true) :
    setString (String.ofList ('+' :: digits)) = some (digitsValue digits : Int) := by
  have notEmpty : digits.isEmpty = false := List.isEmpty_eq_false_iff.mpr nonempty
  have plusNotMinus : ('+' : Char) ≠ '-' := by decide
  simp only [setString, String.toList_ofList, scanSign, plusNotMinus, if_false, if_true, notEmpty,
    Bool.not_false, Bool.true_and, List.all_eq_true, Bool.false_eq_true]
  rw [if_pos allDigits]

/-- `SetString(s, 10)` reads back what `Text(10)` writes. -/
theorem setString_text (x : Int) : setString (text x) = some x := by
  have digits := fun c => @isDigit_of_mem_toDigits x.natAbs c
  by_cases negative : x < 0
  · rw [text, if_pos negative, List.singleton_append,
      setString_neg_of_digits _ Nat.toDigits_ne_nil digits, digitsValue_toDigits, Option.some.injEq]
    omega
  · rw [text, if_neg negative, List.nil_append, setString_of_digits _ Nat.toDigits_ne_nil digits,
      digitsValue_toDigits, Option.some.injEq]
    omega

/-! ## `SetString(s, 0)` -/

/-- `MaxBase`: ten digits and two alphabets. -/
def maxBase : Nat := 62

/-- `maxBaseSmall`: the bases in which a letter of either case has one value. -/
def maxBaseSmall : Nat := 36

/-- The value `nat.scan` gives a character as a digit of base `b`, and
`MaxBase + 1` to a character that is a digit of no base. -/
def digitValue (b : Nat) (ch : Char) : Nat :=
  if '0' ≤ ch ∧ ch ≤ '9' then ch.toNat - '0'.toNat
  else if 'a' ≤ ch ∧ ch ≤ 'z' then ch.toNat - 'a'.toNat + 10
  else if 'A' ≤ ch ∧ ch ≤ 'Z' then
    if b ≤ maxBaseSmall then ch.toNat - 'A'.toNat + 10 else ch.toNat - 'A'.toNat + maxBaseSmall
  else maxBase + 1

/-- The state of the digit loop of `nat.scan`: the value so far, the digits
counted, the previous character as the source classes it (`'_'`, `'0'` for a
digit, `'.'` for anything else), and whether a `_` stood anywhere but after a
digit. -/
structure ScanState where
  value : Nat
  count : Nat
  prev : Char
  invalSep : Bool
  deriving DecidableEq, Repr

/-- The digit loop of `nat.scan` in base `b`, with `_` separators when the
base was 0. It stops at the first character that is neither, which the scanner
unreads: the characters from there on are returned. Go collects the digits in
machine words before it multiplies them in, which gives the same value. -/
def scanDigits (b : Nat) (separators : Bool) (state : ScanState) : List Char → ScanState × List Char
  | [] => (state, [])
  | ch :: rest =>
      if ch = '_' ∧ separators = true then
        scanDigits b separators
          { state with invalSep := state.invalSep || state.prev != '0', prev := '_' } rest
      else if digitValue b ch < b then
        scanDigits b separators
          { state with value := b * state.value + digitValue b ch, count := state.count + 1, prev := '0' }
          rest
      else (state, ch :: rest)

/-- How `nat.scan` starts in base 0: `0b`, `0o` and `0x` choose base 2, 8 and
16, another character after a leading `0` makes the number octal, and anything
else is decimal. The base, the prefix (`none` for Go's `0`), the state the digit
loop starts from, and the characters left for it. -/
def scanBase : List Char → Nat × Option Char × ScanState × List Char
  | [] => (10, none, ⟨0, 0, '.', false⟩, [])
  | ch :: rest =>
      if ch = '0' then
        match rest with
        -- a lone `0` is one decimal digit
        | [] => (10, none, ⟨0, 1, '0', false⟩, [])
        | next :: more =>
            if next = 'b' ∨ next = 'B' then (2, some 'b', ⟨0, 0, '0', false⟩, more)
            else if next = 'o' ∨ next = 'O' then (8, some 'o', ⟨0, 0, '0', false⟩, more)
            else if next = 'x' ∨ next = 'X' then (16, some 'x', ⟨0, 0, '0', false⟩, more)
            -- the prefix `0` is not counted, and `next` is read again as a digit
            else (8, some '0', ⟨0, 0, '0', false⟩, next :: more)
      else (10, none, ⟨0, 0, '.', false⟩, ch :: rest)

/-- `nat.scan(r, 0, false)`, the magnitude that `SetString(s, 0)` reads: its
value and the characters after it, or `none` where Go returns `errNoDigits` or
`errInvalSep`, which `SetString` reports only as failure. -/
def natScan0 (s : List Char) : Option (Nat × List Char) :=
  let (b, basePrefix, start, digits) := scanBase s
  let (state, rest) := scanDigits b true start digits
  -- other errors take precedence over invalid separators; there are none here
  let invalidSep := state.invalSep || state.prev = '_'
  if state.count = 0 then
    -- only the octal prefix `0`, read as decimal 0
    if basePrefix = some '0' then (if invalidSep then none else some (0, rest))
    else none
  else if invalidSep then none else some (state.value, rest)

/-- `(*big.Int).SetString(s, 0)`: a sign, a number in Go's syntax for integer
literals, and nothing after it. -/
def setString0 (s : String) : Option Int :=
  let (neg, rest) := scanSign s.toList
  match natScan0 rest with
  | some (value, []) => some (if neg then -(value : Int) else value)
  | _ => none

example : setString0 "0x_1F" = some 31 := by decide
example : setString0 "_1" = none := by decide

/-- The value of a run of digits of base `b`, accumulated as the digit loop does. -/
def digitsValueIn (b : Nat) (digits : List Char) : Nat :=
  digits.foldl (fun acc c => b * acc + digitValue b c) 0

theorem digitValue_of_isDigit (b : Nat) {c : Char} (digit : c.isDigit = true) :
    digitValue b c = c.toNat - '0'.toNat := by
  simp only [Char.isDigit, Bool.and_eq_true, decide_eq_true_eq] at digit
  have low : '0' ≤ c := digit.1
  have high : c ≤ '9' := digit.2
  rw [digitValue, if_pos ⟨low, high⟩]

theorem digitValue_underscore (b : Nat) : digitValue b '_' = maxBase + 1 := by
  simp [digitValue]

/-- The digit loop reads a run of digits of its base to the end. -/
theorem scanDigits_append (b : Nat) (separators : Bool) (small : b ≤ maxBase) (state : ScanState)
    (digits rest : List Char) (inBase : ∀ c ∈ digits, digitValue b c < b) :
    scanDigits b separators state (digits ++ rest) =
      scanDigits b separators
        { state with value := digits.foldl (fun acc c => b * acc + digitValue b c) state.value,
                     count := state.count + digits.length,
                     prev := if digits = [] then state.prev else '0' } rest := by
  induction digits generalizing state with
  | nil => simp
  | cons c more induction =>
      have digit := inBase c List.mem_cons_self
      have notSeparator : c ≠ '_' := by
        rintro rfl
        rw [digitValue_underscore] at digit
        omega
      rw [List.cons_append, scanDigits, if_neg (by simp [notSeparator]), if_pos digit,
        induction _ fun c inMore => inBase c (List.mem_cons_of_mem _ inMore)]
      simp only [List.foldl_cons, List.length_cons, reduceCtorEq, if_false]
      congr 2
      · omega
      · split <;> rfl

/-- The digit loop stops at a character that is no digit of its base. -/
theorem scanDigits_stop (b : Nat) (separators : Bool) (state : ScanState) (ch : Char) (rest : List Char)
    (notSeparator : ch ≠ '_') (outside : b ≤ digitValue b ch) :
    scanDigits b separators state (ch :: rest) = (state, ch :: rest) := by
  rw [scanDigits, if_neg (by simp [notSeparator]), if_neg (by omega)]

theorem digitsValueIn_ten (digits : List Char) (allDigits : ∀ c ∈ digits, c.isDigit = true) :
    digitsValueIn 10 digits = digitsValue digits := by
  rw [digitsValueIn, digitsValue]
  exact List.foldl_ext _ _ 0 fun acc c member => by rw [digitValue_of_isDigit 10 (allDigits c member)]

/-- A digit read in base 8 counts for no more than in base 10. -/
theorem digitsValueIn_eight_le (digits : List Char) (allDigits : ∀ c ∈ digits, c.isDigit = true) :
    digitsValueIn 8 digits ≤ digitsValue digits := by
  rw [← digitsValueIn_ten digits allDigits, digitsValueIn, digitsValueIn]
  -- the two accumulators stay ordered digit by digit
  suffices ordered : ∀ acc8 acc10, acc8 ≤ acc10 →
      digits.foldl (fun acc c => 8 * acc + digitValue 8 c) acc8 ≤
        digits.foldl (fun acc c => 10 * acc + digitValue 10 c) acc10 from ordered 0 0 le_rfl
  induction digits with
  | nil => exact fun _ _ le => le
  | cons c more induction =>
      intro acc8 acc10 le
      have same : digitValue 8 c = digitValue 10 c := by
        rw [digitValue_of_isDigit 8 (allDigits c List.mem_cons_self),
          digitValue_of_isDigit 10 (allDigits c List.mem_cons_self)]
      exact induction (fun c inMore => allDigits c (List.mem_cons_of_mem _ inMore)) _ _ (by dsimp only; omega)

/-- What `nat.scan` returns once the digit loop has read everything. -/
theorem natScan0_of_scanned (s : List Char) (b : Nat) (basePrefix : Option Char) (start : ScanState)
    (digits : List Char) (state : ScanState) (started : scanBase s = (b, basePrefix, start, digits))
    (scanned : scanDigits b true start digits = (state, [])) (counted : state.count ≠ 0)
    (clean : state.invalSep = false) (afterDigit : state.prev = '0') :
    natScan0 s = some (state.value, []) := by
  simp [natScan0, started, scanned, counted, clean, afterDigit]

theorem digitValue_lt_ten {c : Char} (digit : c.isDigit = true) : digitValue 10 c < 10 := by
  rw [digitValue_of_isDigit 10 digit]
  have high : c.toNat ≤ 57 := (isDigit_iff_toNat.mp digit).2
  have zero : '0'.toNat = 48 := rfl
  omega

theorem digitValue_eight {c : Char} (digit : c.isDigit = true) : digitValue 8 c < 8 ↔ c < '8' := by
  rw [digitValue_of_isDigit 8 digit]
  have low : 48 ≤ c.toNat := (isDigit_iff_toNat.mp digit).1
  show c.val.toNat - 48 < 8 ↔ c.val < (56 : UInt32)
  rw [UInt32.lt_iff_toNat_lt]
  simp only [UInt32.reduceToNat]
  omega

theorem scanBase_of_ne_zero (c : Char) (rest : List Char) (nonzero : c ≠ '0') :
    scanBase (c :: rest) = (10, none, ⟨0, 0, '.', false⟩, c :: rest) := by
  simp [scanBase, nonzero]

/-- After a leading `0`, a digit starts an octal number. -/
theorem scanBase_octal (d : Char) (more : List Char) (digit : d.isDigit = true) :
    scanBase ('0' :: d :: more) = (8, some '0', ⟨0, 0, '0', false⟩, d :: more) := by
  have notLetter : ¬(d = 'b' ∨ d = 'B') ∧ ¬(d = 'o' ∨ d = 'O') ∧ ¬(d = 'x' ∨ d = 'X') := by
    refine ⟨?_, ?_, ?_⟩ <;> rintro (rfl | rfl) <;> exact absurd digit (by decide)
  simp [scanBase, notLetter.1, notLetter.2.1, notLetter.2.2]

/-- `nat.scan` in base 0 on a decimal numeral with no leading zero. -/
theorem natScan0_decimal (first : Char) (rest : List Char)
    (allDigits : ∀ c ∈ first :: rest, c.isDigit = true) (nonzero : first ≠ '0') :
    natScan0 (first :: rest) = some (digitsValue (first :: rest), []) := by
  have scanned := scanDigits_append 10 true (by decide) ⟨0, 0, '.', false⟩ (first :: rest) []
    fun c member => digitValue_lt_ten (allDigits c member)
  rw [List.append_nil, scanDigits] at scanned
  rw [natScan0_of_scanned _ _ _ _ _ _ (scanBase_of_ne_zero first rest nonzero) scanned
    (by simp) rfl (by simp), ← digitsValueIn_ten _ allDigits]
  rfl

/-- The first digit of a positive number is not `0`. -/
theorem toDigits_head_ne_zero (n : Nat) (positive : 0 < n) :
    ∃ first rest, Nat.toDigits 10 n = first :: rest ∧ first ≠ '0' := by
  induction n using Nat.strongRecOn with
  | ind n induction =>
      by_cases small : n < 10
      · have table : ∀ d < 10, 0 < d → Nat.digitChar d ≠ '0' := by decide
        exact ⟨_, [], Nat.toDigits_of_lt_base small, table n small positive⟩
      · obtain ⟨first, rest, digits, nonzero⟩ := induction (n / 10) (by omega) (by omega)
        refine ⟨first, rest ++ [Nat.digitChar (n % 10)], ?_, nonzero⟩
        rw [← List.cons_append, ← digits, ← Nat.toDigits_of_lt_base (Nat.mod_lt n (by decide)),
          Nat.toDigits_append_toDigits (by decide) (by omega) (Nat.mod_lt n (by decide)),
          Nat.div_add_mod]

/-- `SetString(s, 0)` reads back what `Text(10)` writes: decimal text has no
leading zero that would make it octal. -/
theorem setString0_text (x : Int) : setString0 (text x) = some x := by
  by_cases zero : x = 0
  · subst zero
    rfl
  obtain ⟨first, rest, digits, nonzero⟩ := toDigits_head_ne_zero x.natAbs (by omega)
  have allDigits : ∀ c ∈ first :: rest, c.isDigit = true := by
    rw [← digits]
    exact fun c => isDigit_of_mem_toDigits
  have read := natScan0_decimal first rest allDigits nonzero
  have value : digitsValue (first :: rest) = x.natAbs := by rw [← digits, digitsValue_toDigits]
  rw [value] at read
  by_cases negative : x < 0
  · rw [text, if_pos negative, digits, setString0, String.toList_ofList, List.singleton_append]
    simp only [scanSign, if_true, read]
    congr 1
    omega
  · rw [text, if_neg negative, digits, List.nil_append, setString0, String.toList_ofList,
      scanSign_of_isDigit first rest (allDigits first List.mem_cons_self)]
    simp only [read, Bool.false_eq_true, if_false]
    congr 1
    omega

/-- `SetString(s, 0)` reads a leading `0` followed by octal digits in base 8. -/
theorem setString0_octal (digits : List Char) (octal : ∀ c ∈ digits, c.isDigit = true ∧ c < '8') :
    setString0 (String.ofList ('0' :: digits)) = some (digitsValueIn 8 digits : Int) := by
  cases digits with
  | nil => rfl
  | cons d more =>
      have scanned := scanDigits_append 8 true (by decide) ⟨0, 0, '0', false⟩ (d :: more) []
        fun c member => (digitValue_eight (octal c member).1).mpr (octal c member).2
      rw [List.append_nil, scanDigits] at scanned
      have read := natScan0_of_scanned _ _ _ _ _ _
        (scanBase_octal d more (octal d List.mem_cons_self).1) scanned (by simp) rfl (by simp)
      rw [setString0, String.toList_ofList, scanSign_of_isDigit '0' _ (by decide)]
      simp only [read]
      rfl

/-- Where the digit loop stops before the end, `nat.scan` leaves the rest unread. -/
theorem natScan0_of_stopped (s : List Char) (b : Nat) (basePrefix : Option Char) (start : ScanState)
    (digits : List Char) (state : ScanState) (ch : Char) (rest : List Char)
    (started : scanBase s = (b, basePrefix, start, digits))
    (scanned : scanDigits b true start digits = (state, ch :: rest)) (value : Nat) (unread : List Char)
    (read : natScan0 s = some (value, unread)) : unread = ch :: rest := by
  simp only [natScan0, started, scanned] at read
  split_ifs at read <;> simp at read <;> exact read.2.symm

/-- A leading `0` makes the numeral octal: a digit `8` or `9` after it ends the
number early, and `SetString` fails on what is left. -/
theorem setString0_leading_zero_of_not_octal (digits : List Char)
    (allDigits : ∀ c ∈ digits, c.isDigit = true) (notOctal : ∃ c ∈ digits, '8' ≤ c) :
    setString0 (String.ofList ('0' :: digits)) = none := by
  -- the octal digits before the first `8` or `9`, and the rest from there
  obtain ⟨ch, rest, after⟩ : ∃ ch rest, digits.dropWhile (· < '8') = ch :: rest := by
    cases after : digits.dropWhile (· < '8') with
    | nil =>
        obtain ⟨c, member, large⟩ := notOctal
        have := (List.dropWhile_eq_nil_iff.mp after) c member
        simp only [decide_eq_true_eq] at this
        exact absurd this (not_lt.mpr large)
    | cons ch rest => exact ⟨ch, rest, rfl⟩
  have large : ¬ch < '8' := by
    have := List.head_dropWhile_not (fun c => decide (c < '8')) (l := digits) (by simp [after])
    simpa [after] using this
  have split := List.takeWhile_append_dropWhile (p := (· < '8')) (l := digits)
  rw [after] at split
  have inDigits : ∀ c ∈ digits.takeWhile (· < '8') ++ ch :: rest, c.isDigit = true := by
    rw [split]; exact allDigits
  have octal : ∀ c ∈ digits.takeWhile (· < '8'), digitValue 8 c < 8 := by
    intro c member
    have small : c < '8' := by simpa using List.mem_takeWhile_imp member
    exact (digitValue_eight (inDigits c (List.mem_append_left _ member))).mpr small
  have stopped := scanDigits_append 8 true (by decide) ⟨0, 0, '0', false⟩ _ (ch :: rest) octal
  have chDigit := inDigits ch (by simp)
  rw [scanDigits_stop 8 true _ ch rest (by rintro rfl; exact absurd chDigit (by decide))
    (by rw [← not_lt, digitValue_eight chDigit]; exact large)] at stopped
  -- the first character after the `0` is a digit, so the base is 8
  obtain ⟨d, more, first⟩ : ∃ d more, digits = d :: more := by
    cases digits with
    | nil => simp at split
    | cons d more => exact ⟨d, more, rfl⟩
  have started := scanBase_octal d more (allDigits d (by simp [first]))
  rw [← first, ← split] at started
  rw [setString0, String.toList_ofList, scanSign_of_isDigit '0' _ (by decide)]
  dsimp only
  cases read : natScan0 ('0' :: digits) with
  | none => rfl
  | some result =>
      obtain ⟨value, unread⟩ := result
      rw [← split] at read
      rw [natScan0_of_stopped _ _ _ _ _ _ _ _ started stopped value unread read]

/-! ## Big-endian bytes -/

/-- `(*big.Int).Bytes` of a non-negative value: its big-endian bytes, with no
leading zero (none at all for `0`). -/
def bytes (x : Nat) : List UInt8 := ((Nat.digits 256 x).map UInt8.ofNat).reverse

/-- `(*big.Int).SetBytes`: the value of big-endian bytes. -/
def setBytes (bs : List UInt8) : Nat := bs.foldl (fun acc b => 256 * acc + b.toNat) 0

theorem setBytes_append_singleton (bs : List UInt8) (b : UInt8) :
    setBytes (bs ++ [b]) = 256 * setBytes bs + b.toNat := by
  simp [setBytes, List.foldl_append]

/-- Leading zero bytes do not change the value. -/
theorem setBytes_zeros_append (k : Nat) (bs : List UInt8) :
    setBytes (List.replicate k 0 ++ bs) = setBytes bs := by
  have zeros : ∀ k, (List.replicate k (0 : UInt8)).foldl (fun acc b => 256 * acc + b.toNat) 0 = 0 := by
    intro k
    induction k with
    | zero => rfl
    | succ k induction => rw [List.replicate_succ', List.foldl_append, induction]; rfl
  rw [setBytes, List.foldl_append, zeros]
  rfl

/-- Bytes are base-256 digits, read most significant first. -/
theorem setBytes_reverse_map (digits : List Nat) (small : ∀ d ∈ digits, d < 256) :
    setBytes ((digits.map UInt8.ofNat).reverse) = Nat.ofDigits 256 digits := by
  induction digits with
  | nil => rfl
  | cons d rest induction =>
      have byte : (UInt8.ofNat d).toNat = d := by
        simp only [UInt8.toNat_ofNat']
        exact Nat.mod_eq_of_lt (small d List.mem_cons_self)
      rw [List.map_cons, List.reverse_cons, setBytes_append_singleton,
        induction fun d inRest => small d (List.mem_cons_of_mem _ inRest), byte, Nat.ofDigits_cons]
      omega

theorem setBytes_bytes (x : Nat) : setBytes (bytes x) = x := by
  rw [bytes, setBytes_reverse_map _ fun d member => Nat.digits_lt_base (by decide) member,
    Nat.ofDigits_digits]

theorem setBytes_lt (bs : List UInt8) : setBytes bs < 256 ^ bs.length := by
  induction bs using List.reverseRecOn with
  | nil => exact Nat.one_pos
  | append_singleton bs b induction =>
      have := UInt8.toNat_lt b
      rw [setBytes_append_singleton, List.length_append, List.length_singleton, Nat.pow_succ]
      omega

/-- Big-endian bytes of one length are determined by their value. -/
theorem setBytes_inj {bs cs : List UInt8} (sameLength : bs.length = cs.length)
    (same : setBytes bs = setBytes cs) : bs = cs := by
  induction bs using List.reverseRecOn generalizing cs with
  | nil => exact (List.length_eq_zero_iff.mp sameLength.symm).symm
  | append_singleton bs b induction =>
      obtain ⟨cs', c, rfl⟩ : ∃ cs' c, cs = cs' ++ [c] := by
        rcases List.eq_nil_or_concat cs with empty | ⟨cs', c, split⟩
        · subst empty
          simp at sameLength
        · exact ⟨cs', c, by rw [split, List.concat_eq_append]⟩
      simp only [List.length_append, List.length_singleton, Nat.add_right_cancel_iff] at sameLength
      rw [setBytes_append_singleton, setBytes_append_singleton] at same
      -- the last byte is the value mod 256, the rest the value over 256
      have lowB := UInt8.toNat_lt b
      have lowC := UInt8.toNat_lt c
      have lastByte : b.toNat = c.toNat := by omega
      have front : setBytes bs = setBytes cs' := by omega
      rw [induction sameLength front, UInt8.toNat_inj.mp lastByte]

theorem length_bytes_le_iff (x k : Nat) : (bytes x).length ≤ k ↔ x < 256 ^ k := by
  rw [bytes, List.length_reverse, List.length_map]
  exact Nat.digits_length_le_iff (by decide) x

/-! ## Division -/

/-- `big.Int.Quo`: the quotient truncated toward zero; a zero divisor panics. -/
def quo (x y : Int) : Result Int :=
  if y = 0 then panicWith "division by zero" else .ok (x.tdiv y)

theorem quo_of_ne_zero (x y : Int) (nonzero : y ≠ 0) : quo x y = .ok (x.tdiv y) := if_neg nonzero

end Go.Big
