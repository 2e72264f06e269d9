import CoreSdk.Go.Big

/-!
# `strconv.ParseUint` in base 10

`ParseUint(s, 10, bitSize)` for a bit size from 1 to 64: the decimal digits of
`s`, read from the left, with a syntax error at the first character that is not
a digit and a range error as soon as the value read so far passes
`2^bitSize - 1`. The value is returned with the error, as Go does: `0` with a
syntax error and the maximum with a range error.

A decimal text of a value in range is read back as that value
(`parseUint_toDigits`). `strconv.Quote`, which the error text uses, is a
parameter.
-/

namespace Go.Strconv

set_option autoImplicit false

/-- `ErrSyntax` and `ErrRange`. -/
inductive NumErr where
  | errSyntax
  | errRange
  deriving DecidableEq, Repr

/-- `NumError`: the function, its input and the reason. -/
structure NumError where
  func : String
  num : String
  err : NumErr
  deriving DecidableEq, Repr

def NumErr.error : NumErr → String
  | .errSyntax => "invalid syntax"
  | .errRange => "value out of range"

/-- `(*NumError).Error`, with `strconv.Quote` as `quote`. -/
def NumError.error (quote : String → String) (e : NumError) : String :=
  "strconv." ++ e.func ++ ": " ++ "parsing " ++ quote e.num ++ ": " ++ e.err.error

def maxUint64 : Nat := 2 ^ 64 - 1

/-- The digit loop of `ParseUint` over the input `s`, with the value `n` read so
far. A letter is a digit of ten or more, which base 10 rejects as any other
character. -/
def parseUintLoop (s : String) (maxVal : Nat) : Nat → List Char → Nat × Option NumError
  | n, [] => (n, none)
  | n, c :: rest =>
    if '0' ≤ c ∧ c ≤ '9' then
      let d := c.toNat - '0'.toNat
      -- Cutoff is the smallest number such that cutoff*base > maxUint64.
      if n ≥ maxUint64 / 10 + 1 then (maxVal, some ⟨"ParseUint", s, .errRange⟩)
      else
        let n := n * 10
        let n1 := (n + d) % 2 ^ 64
        if n1 < n ∨ n1 > maxVal then (maxVal, some ⟨"ParseUint", s, .errRange⟩)
        else parseUintLoop s maxVal n1 rest
    else (0, some ⟨"ParseUint", s, .errSyntax⟩)

/-- `ParseUint(s, 10, bitSize)`. -/
def parseUint (s : String) (bitSize : Nat) : Nat × Option NumError :=
  if s = "" then (0, some ⟨"ParseUint", s, .errSyntax⟩)
  else parseUintLoop s (2 ^ bitSize - 1) 0 s.toList

/-- Reading digits only adds to the value read so far. -/
theorem le_foldl_digits (digits : List Char) (n : Nat) :
    n ≤ digits.foldl (fun acc c => 10 * acc + (c.toNat - '0'.toNat)) n := by
  induction digits generalizing n with
  | nil => exact le_rfl
  | cons c rest induction =>
    rw [List.foldl_cons]
    exact le_trans (by omega) (induction _)

/-- The loop over decimal digits whose value stays in range returns that value. -/
theorem parseUintLoop_digits (s : String) {maxVal : Nat} (small : maxVal ≤ maxUint64) (digits : List Char)
    (allDigits : ∀ c ∈ digits, c.isDigit = true) (n : Nat)
    (fits : digits.foldl (fun acc c => 10 * acc + (c.toNat - '0'.toNat)) n ≤ maxVal) :
    parseUintLoop s maxVal n digits = (digits.foldl (fun acc c => 10 * acc + (c.toNat - '0'.toNat)) n, none) := by
  induction digits generalizing n with
  | nil => rfl
  | cons c rest induction =>
    have digit := Go.Big.isDigit_iff_toNat.mp (allDigits c List.mem_cons_self)
    rw [List.foldl_cons] at fits ⊢
    -- every value read on the way is at most the last one
    have next := le_foldl_digits rest (10 * n + (c.toNat - '0'.toNat))
    have inRange : '0' ≤ c ∧ c ≤ '9' := by
      rw [Char.le_def, Char.le_def, UInt32.le_iff_toNat_le, UInt32.le_iff_toNat_le]
      exact digit
    unfold maxUint64 at small
    have noCarry : (n * 10 + (c.toNat - '0'.toNat)) % 2 ^ 64 = 10 * n + (c.toNat - '0'.toNat) := by
      rw [Nat.mod_eq_of_lt (by omega)]
      omega
    rw [parseUintLoop, if_pos inRange]
    dsimp only
    rw [if_neg (by unfold maxUint64; omega), noCarry, if_neg (by omega)]
    exact induction (fun other member => allDigits other (List.mem_cons_of_mem c member)) _ fits

/-- `ParseUint` reads back the decimal text of a value in range. -/
theorem parseUint_toDigits (v bitSize : Nat) (inside : bitSize ≤ 64) (fits : v < 2 ^ bitSize) :
    parseUint (String.ofList (Nat.toDigits 10 v)) bitSize = (v, none) := by
  have nonempty : String.ofList (Nat.toDigits 10 v) ≠ "" := by
    rw [ne_eq, ← String.toList_inj, String.toList_ofList]
    exact Nat.toDigits_ne_nil
  have widest : 2 ^ bitSize - 1 ≤ maxUint64 := by
    unfold maxUint64
    have := Nat.pow_le_pow_right (show 0 < 2 by decide) inside
    omega
  have value := Go.Big.digitsValue_toDigits v
  rw [Go.Big.digitsValue] at value
  rw [parseUint, if_neg nonempty, String.toList_ofList,
    parseUintLoop_digits _ widest _ (fun c member => Go.Big.isDigit_of_mem_toDigits member) 0 (by omega), value]

end Go.Strconv
