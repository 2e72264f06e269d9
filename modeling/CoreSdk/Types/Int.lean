import CoreSdk.Go.Big
import CoreSdk.Go.Runtime

/-!
# Bounded integers

The arithmetic of `types.Int` (`types/int.go`) that the coin models read. An
`Int` wraps a `*big.Int` whose bit length stays at most `maxBitLen`: the
constructors refuse longer values and `Add` panics on them.
-/

namespace CoreSdk.Types.SdkInt

open Go Go.Big

set_option autoImplicit false

def maxBitLen : Nat := 255

/-- `Int.Add`. -/
def add (i i2 : Int) : Result Int :=
  let res := i + i2
  -- Check overflow
  if bitLen res > maxBitLen then panicWith "Int overflow" else .ok res

/-- `Int.IsZero`. -/
def isZero (i : Int) : Bool := decide (i = 0)

/-- `Int.IsPositive`. -/
def isPositive (i : Int) : Bool := decide (0 < i)

/-- `Int.IsNegative`. -/
def isNegative (i : Int) : Bool := decide (i < 0)

/-- `Int.Neg`: no bound is checked, and none is needed, since `-i` is as long as `i`. -/
def neg (i : Int) : Int := -i

/-- `Int.String`. -/
def string (i : Int) : String := text i

/-- `newIntegerFromString`: `SetString(s, 0)`. -/
def newIntegerFromString (s : String) : Option Int := setString0 s

/-- `NewIntFromString`, with `ok = false` as `none`. -/
def newIntFromString (s : String) : Option Int :=
  match newIntegerFromString s with
  | none => none
  -- Check overflow
  | some i => if bitLen i > maxBitLen then none else some i

/-- `NewIntFromBigInt`. -/
def newIntFromBigInt (i : Int) : Result Int :=
  if bitLen i > maxBitLen then panicWith "NewIntFromBigInt() out of bound" else .ok i

/-- `NewIntWithDecimal`: `n * 10^dec`, a panic on a negative `dec` or past the bound. -/
def newIntWithDecimal (n : Int) (dec : Int) : Result Int :=
  if dec < 0 then panicWith "NewIntWithDecimal() decimal is negative"
  else
    let i := n * 10 ^ dec.toNat
    -- Check overflow
    if bitLen i > maxBitLen then panicWith "NewIntWithDecimal() out of bound" else .ok i

theorem add_of_fits (i i2 : Int) (fits : bitLen (i + i2) ≤ maxBitLen) : add i i2 = .ok (i + i2) := by
  simp [add, Nat.not_lt.mpr fits]

theorem add_eq_ok {i i2 res : Int} (added : add i i2 = .ok res) : res = i + i2 := by
  simp only [add] at added
  split_ifs at added
  · simp [panicWith] at added
  · exact (Except.ok.inj added).symm

theorem add_ne_fail (i i2 : Int) (message : String) : add i i2 ≠ fail message := by
  simp only [add]
  split_ifs
  · exact panicWith_ne_fail _ _
  · exact (fail_ne_ok _ _).symm

theorem newIntFromBigInt_ne_fail (i : Int) (message : String) : newIntFromBigInt i ≠ fail message := by
  unfold newIntFromBigInt
  split_ifs
  · exact panicWith_ne_fail _ _
  · exact (fail_ne_ok _ _).symm

theorem newIntFromBigInt_eq_ok {i res : Int} : newIntFromBigInt i = .ok res ↔ res = i ∧ bitLen i ≤ maxBitLen := by
  unfold newIntFromBigInt
  split_ifs with tooLong
  · simp only [panicWith, reduceCtorEq, false_iff, not_and]
    omega
  · rw [Except.ok.injEq]
    constructor
    · intro same
      exact ⟨same.symm, Nat.not_lt.mp tooLong⟩
    · intro fits
      exact fits.1.symm

theorem newIntFromString_of_setString0 {s : String} {i : Int} (parsed : setString0 s = some i)
    (fits : bitLen i ≤ maxBitLen) : newIntFromString s = some i := by
  simp [newIntFromString, newIntegerFromString, parsed, Nat.not_lt.mpr fits]

theorem newIntFromString_of_setString0_none {s : String} (refused : setString0 s = none) :
    newIntFromString s = none := by
  simp [newIntFromString, newIntegerFromString, refused]

theorem newIntWithDecimal_of_fits (n : Int) (dec : Nat) (fits : bitLen (n * 10 ^ dec) ≤ maxBitLen) :
    newIntWithDecimal n dec = .ok (n * 10 ^ dec) := by
  rw [newIntWithDecimal, if_neg (by omega), Int.toNat_natCast, if_neg (Nat.not_lt.mpr fits)]

/-- The text `String` writes reads back, for every value within the bound. -/
theorem newIntFromString_string (i : Int) (fits : bitLen i ≤ maxBitLen) :
    newIntFromString (string i) = some i :=
  newIntFromString_of_setString0 (setString0_text i) fits

end CoreSdk.Types.SdkInt
