import CoreSdk.Go.Big
import CoreSdk.Go.Runtime

/-!
# Decimals

A transcription of `types/dec.go`. A `Dec` is a big integer `i` read as
`i / 10^18`; the nil `*big.Int` is not a value of the model.
-/

namespace CoreSdk.Types

open Go Go.Big

set_option autoImplicit false

/-- `Dec`. -/
structure Dec where
  i : Int
  deriving DecidableEq, Repr

namespace Dec

/-- `Precision`: the number of decimal places. -/
def precision : Nat := 18

/-- `DecimalPrecisionBits`: the bits of `10^18 - 1`. -/
def decimalPrecisionBits : Nat := 60

/-- `precisionMultipliers`, as `init` fills it with `calcPrecisionMultiplier`:
`10^(Precision - prec)` at index `prec`. -/
def precisionMultipliers : List Int :=
  (List.range (precision + 1)).map fun prec => 10 ^ (precision - prec)

/-- `precisionMultiplier`. -/
def precisionMultiplier (prec : Int) : Result Int :=
  if prec > precision then
    panicWith ("too much precision, maximum " ++ toString precision ++ ", provided " ++ toString prec)
  else index precisionMultipliers prec

/-- `NewDecFromIntWithPrec`. -/
def newDecFromIntWithPrec (i : Int) (prec : Int) : Result Dec := do
  let multiplier ← precisionMultiplier prec
  pure ⟨i * multiplier⟩

/-- `NewDecFromInt`. -/
def newDecFromInt (i : Int) : Result Dec := newDecFromIntWithPrec i 0

/-- `NewDecWithPrec`: the product `NewDecFromIntWithPrec` forms, of an `int64`. -/
def newDecWithPrec (i prec : Int) : Result Dec := newDecFromIntWithPrec i prec

theorem newDecFromInt_eq (i : Int) : newDecFromInt i = .ok ⟨i * 10 ^ precision⟩ := rfl

/-- `Dec.IsNegative`. -/
def isNegative (d : Dec) : Bool := decide (d.i < 0)

/-- `Dec.Neg`. -/
def neg (d : Dec) : Dec := ⟨-d.i⟩

/-- `Dec.Add`. -/
def add (d d2 : Dec) : Result Dec :=
  let res := d.i + d2.i
  if bitLen res > 255 + decimalPrecisionBits then panicWith "Int overflow" else .ok ⟨res⟩

/-- `Dec.Sub`. -/
def sub (d d2 : Dec) : Result Dec :=
  let res := d.i - d2.i
  if bitLen res > 255 + decimalPrecisionBits then panicWith "Int overflow" else .ok ⟨res⟩

/-- `Dec.IsZero`. -/
def isZero (d : Dec) : Bool := decide (d.i = 0)

/-- `Dec.IsPositive`. -/
def isPositive (d : Dec) : Bool := decide (0 < d.i)

theorem add_eq_ok {d d2 res : Dec} (added : add d d2 = .ok res) : res.i = d.i + d2.i := by
  simp only [add] at added
  split_ifs at added
  · simp [panicWith] at added
  · rw [← Except.ok.inj added]

theorem add_ne_fail (d d2 : Dec) (message : String) : add d d2 ≠ fail message := by
  simp only [add]
  split_ifs
  · exact panicWith_ne_fail _ _
  · exact (fail_ne_ok _ _).symm

theorem sub_of_fits (d d2 : Dec) (fits : bitLen (d.i - d2.i) ≤ 255 + decimalPrecisionBits) :
    sub d d2 = .ok ⟨d.i - d2.i⟩ := by
  rw [sub, if_neg (Nat.not_lt.mpr fits)]

theorem sub_ne_fail (d d2 : Dec) (message : String) : sub d d2 ≠ fail message := by
  simp only [sub]
  split_ifs
  · exact panicWith_ne_fail _ _
  · exact (fail_ne_ok _ _).symm

end Dec

end CoreSdk.Types
