import CoreSdk.Go.Runtime
import Mathlib.Data.Nat.Bitwise
import Mathlib.Data.List.GetD

/-!
# Compact bit arrays

A transcription of `common/crypto/types/compact_bit_array.go`: `NewCompactBitArray`,
`Count`, `GetIndex`, `SetIndex` and `NumTrueBitsBefore`. A `*CompactBitArray`
is an `Option CompactBitArray` (the nil pointer is `none`); `Elems` is a list of
bytes and `ExtraBitsStored` keeps the `uint32` of the protobuf message, so
that decoded arrays whose two fields disagree are representable.

`Count` trusts `ExtraBitsStored`. When it is below 8 the array is *well sized*:
every index below `Count` falls inside `Elems`, and `GetIndex` is the pure bit
view `bit`. When it is 8 or more, `Count` exceeds `8 * len(Elems)` and
`GetIndex` indexes past the end of `Elems`.
-/

namespace CoreSdk.Crypto

open Go

set_option autoImplicit false

structure CompactBitArray where
  extraBitsStored : UInt32
  elems : List UInt8
  deriving DecidableEq, Repr

namespace CompactBitArray

/-- `NewCompactBitArray`: nil when the number of bits is not positive. -/
def newCompactBitArray (bits : Int) : Option CompactBitArray :=
  if bits ≤ 0 then none
  else some { extraBitsStored := (bits % 8).toNat.toUInt32
              elems := List.replicate ((bits + 7) / 8).toNat 0 }

/-- `Count`, in Go's `int` arithmetic: negative for an empty `Elems` with extra bits. -/
def count : Option CompactBitArray → Int
  | none => 0
  | some bA =>
      if bA.extraBitsStored = 0 then (bA.elems.length : Int) * 8
      else ((bA.elems.length : Int) - 1) * 8 + (bA.extraBitsStored.toNat : Int)

/-- `uint8(1) << uint8(7-(i%8))`, with Go's truncating `%`. -/
def bitMask (i : Int) : UInt8 := (1 : UInt8) <<< (7 - i.tmod 8).toNat.toUInt8

/-- `GetIndex`: false on nil and at or past `Count`, else the bit of `Elems[i>>3]`.
Go's arithmetic shift `i>>3` is the floor quotient `i / 8`. -/
def getIndex : Option CompactBitArray → Int → Result Bool
  | none, _ => pure false
  | some bA, i =>
      if i ≥ count (some bA) then pure false
      else do
        let elem ← index bA.elems (i / 8)
        pure (elem &&& bitMask i > 0)

/-- `SetIndex`: the array after the in-place update and the returned flag. -/
def setIndex : Option CompactBitArray → Int → Bool → Result (Option CompactBitArray × Bool)
  | none, _, _ => pure (none, false)
  | some bA, i, v =>
      if i ≥ count (some bA) then pure (some bA, false)
      else do
        let elem ← index bA.elems (i / 8)
        let updated := if v then elem ||| bitMask i else elem &&& ~~~(bitMask i)
        pure (some { bA with elems := bA.elems.set (i / 8).toNat updated }, true)

/-- `NumTrueBitsBefore`: the loop over `i < index` counting `GetIndex(i)`. -/
def numTrueBitsBefore (bA : Option CompactBitArray) (index : Int) : Result Nat :=
  (List.range index.toNat).foldlM
    (fun numTrueValues (i : Nat) => do
      let isSet ← getIndex bA i
      pure (if isSet then numTrueValues + 1 else numTrueValues)) 0

/-- `ExtraBitsStored` below 8: the invariant every constructor of the source keeps. -/
def WellSized (bA : CompactBitArray) : Prop := bA.extraBitsStored.toNat < 8

instance (bA : CompactBitArray) : Decidable bA.WellSized :=
  inferInstanceAs (Decidable (bA.extraBitsStored.toNat < 8))

/-- Bit `i` of the byte list, most significant bit of each byte first. -/
def testBitAt (elems : List UInt8) (i : Nat) : Bool :=
  (elems.getD (i / 8) 0).toNat.testBit (7 - i % 8)

/-- The pure bit view of an array: set bits strictly below `Count`. -/
def bit (bA : Option CompactBitArray) (i : Nat) : Bool :=
  match bA with
  | none => false
  | some bA => decide ((i : Int) < count (some bA)) && testBitAt bA.elems i

/-- The number of set bits below `n`. -/
def trueBitsBefore (bA : Option CompactBitArray) (n : Nat) : Nat :=
  (List.range n).countP (bit bA)

/-- The array after `SetIndex(n, true)` at an index below `Count`. -/
def setBit (bA : CompactBitArray) (n : Nat) : CompactBitArray :=
  { bA with elems := bA.elems.set (n / 8) (bA.elems.getD (n / 8) 0 ||| bitMask n) }

/-! ## Byte-level facts -/

theorem tmod_natCast_eight (n : Nat) : Int.tmod (n : Int) 8 = ((n % 8 : Nat) : Int) := by
  rw [Int.tmod_eq_emod_of_nonneg (by omega)]
  omega

theorem div_natCast_eight (n : Nat) : (n : Int) / 8 = ((n / 8 : Nat) : Int) := by
  omega

theorem bitMask_toNat (n : Nat) : (bitMask n).toNat = 2 ^ (7 - n % 8) := by
  have shift : (7 - Int.tmod (n : Int) 8).toNat = 7 - n % 8 := by
    rw [tmod_natCast_eight]
    omega
  have small : 2 ^ (7 - n % 8) < 256 :=
    Nat.lt_of_le_of_lt (Nat.pow_le_pow_right (by decide) (by omega : 7 - n % 8 ≤ 7)) (by decide)
  simp only [bitMask, shift, UInt8.toNat_shiftLeft, UInt8.toNat_one]
  simp [Nat.toUInt8, Nat.mod_eq_of_lt (by omega : 7 - n % 8 < 8), Nat.one_shiftLeft,
    Nat.mod_eq_of_lt small]

/-- Masking a byte with `bitMask n` reads its bit `7 - n % 8`. -/
theorem and_bitMask_pos (b : UInt8) (n : Nat) :
    (b &&& bitMask n > 0) = b.toNat.testBit (7 - n % 8) := by
  have masked : (b &&& bitMask n).toNat =
      2 ^ (7 - n % 8) * (b.toNat.testBit (7 - n % 8)).toNat := by
    rw [UInt8.toNat_and, bitMask_toNat, Nat.and_comm, Nat.two_pow_and]
  rw [eq_iff_iff, gt_iff_lt, UInt8.lt_iff_toNat_lt, masked]
  cases b.toNat.testBit (7 - n % 8) with
  | false => simp
  | true =>
      simp only [Bool.toNat_true, mul_one, UInt8.toNat_zero, iff_true]
      exact Nat.two_pow_pos _

theorem testBit_or_bitMask (b : UInt8) (n j : Nat) :
    (b ||| bitMask n).toNat.testBit j = (b.toNat.testBit j || decide (7 - n % 8 = j)) := by
  rw [UInt8.toNat_or, bitMask_toNat, Nat.testBit_or, Nat.testBit_two_pow]

/-- Or-ing the mask of `n` into its byte sets bit `n` and no other. -/
theorem testBitAt_set_or (elems : List UInt8) (n j : Nat) (inside : n / 8 < elems.length) :
    testBitAt (elems.set (n / 8) (elems.getD (n / 8) 0 ||| bitMask n)) j =
      (testBitAt elems j || decide (j = n)) := by
  unfold testBitAt
  by_cases sameByte : j / 8 = n / 8
  · have setInside : n / 8 < (elems.set (n / 8) (elems.getD (n / 8) 0 ||| bitMask n)).length := by
      simpa using inside
    rw [sameByte, List.getD_eq_getElem _ _ setInside, List.getElem_set_self, testBit_or_bitMask]
    have sameBit : decide (7 - n % 8 = 7 - j % 8) = decide (j = n) := by
      apply decide_eq_decide.mpr
      omega
    rw [sameBit]
  · have otherBit : decide (j = n) = false := by
      apply decide_eq_false
      intro same
      exact sameByte (by rw [same])
    simp only [otherBit, Bool.or_false, List.getD_eq_getElem?_getD,
      List.getElem?_set_ne (Ne.symm sameByte)]

/-! ## `Count` and the pure bit view -/

/-- Below `Count`, a well-sized array's byte index is inside `Elems`. -/
theorem byte_index_lt_length (bA : CompactBitArray) (wellSized : bA.WellSized) (n : Nat)
    (below : (n : Int) < count (some bA)) : n / 8 < bA.elems.length := by
  unfold WellSized at wellSized
  simp only [count] at below
  split_ifs at below with noExtra
  · omega
  · omega

theorem getIndex_natCast (bA : Option CompactBitArray) (wellSized : ∀ b ∈ bA, b.WellSized)
    (n : Nat) : getIndex bA n = .ok (bit bA n) := by
  cases bA with
  | none => rfl
  | some bA =>
      simp only [getIndex, bit]
      by_cases past : (n : Int) ≥ count (some bA)
      · rw [if_pos past]
        simp [Int.not_lt.mpr past]
      · rw [if_neg past]
        have below : (n : Int) < count (some bA) := Int.lt_of_not_ge past
        have inside := byte_index_lt_length bA (wellSized bA rfl) n below
        rw [div_natCast_eight, index_natCast_of_lt _ _ inside, ok_bind, pure_eq_ok]
        simp [and_bitMask_pos, testBitAt, List.getElem?_eq_getElem inside, below]

/-- Whatever the sizes, a `GetIndex` that returns reads the pure bit view. -/
theorem getIndex_ok_eq_bit (bA : Option CompactBitArray) (n : Nat) (b : Bool)
    (read : getIndex bA n = .ok b) : b = bit bA n := by
  cases bA with
  | none =>
      cases read
      rfl
  | some bA =>
      simp only [getIndex] at read
      by_cases past : (n : Int) ≥ count (some bA)
      · rw [if_pos past, pure_eq_ok, Except.ok.injEq] at read
        subst read
        simp [bit, Int.not_lt.mpr past]
      · rw [if_neg past] at read
        obtain ⟨elem, found, value⟩ := bind_eq_ok.mp read
        obtain ⟨k, position, lookup⟩ := index_eq_ok found
        rw [div_natCast_eight, Int.natCast_inj] at position
        subst position
        rw [pure_eq_ok, Except.ok.injEq] at value
        subst value
        simp [bit, testBitAt, and_bitMask_pos, List.getD_eq_getElem?_getD, lookup,
          Int.lt_of_not_ge past]

/-- `GetIndex` never returns an error value: it answers or panics. -/
theorem getIndex_ne_fail (bA : Option CompactBitArray) (i : Int) (message : String) :
    getIndex bA i ≠ fail message := by
  intro failed
  cases bA with
  | none => simp [getIndex, fail] at failed
  | some bA =>
      simp only [getIndex] at failed
      split_ifs at failed
      · simp [fail] at failed
      · rcases bind_eq_error.mp failed with found | ⟨elem, _, value⟩
        · exact index_ne_fail _ _ _ found
        · simp at value

private theorem foldl_count_eq_countP (p : Nat → Bool) (xs : List Nat) (start : Nat) :
    xs.foldl (fun acc i => if p i then acc + 1 else acc) start = start + xs.countP p := by
  induction xs generalizing start with
  | nil => simp
  | cons x xs induction =>
      rw [List.foldl_cons, induction, List.countP_cons]
      split_ifs <;> omega

theorem numTrueBitsBefore_eq (bA : Option CompactBitArray) (wellSized : ∀ b ∈ bA, b.WellSized)
    (index : Int) : numTrueBitsBefore bA index = .ok (trueBitsBefore bA index.toNat) := by
  unfold numTrueBitsBefore trueBitsBefore
  rw [foldlM_eq_ok_foldl _ (fun acc i => if bit bA i then acc + 1 else acc)]
  · rw [foldl_count_eq_countP, Nat.zero_add]
  · intro acc i _
    rw [getIndex_natCast bA wellSized i, ok_bind, pure_eq_ok]

/-- Whatever the sizes, a `NumTrueBitsBefore` that returns counts the pure bit view. -/
theorem numTrueBitsBefore_ok_eq (bA : Option CompactBitArray) (index : Int) (counted : Nat)
    (finished : numTrueBitsBefore bA index = .ok counted) :
    counted = trueBitsBefore bA index.toNat := by
  unfold numTrueBitsBefore at finished
  have same := foldlM_ok_eq_foldl _ (fun acc i => if bit bA i then acc + 1 else acc) _ _ _
    (fun acc i next _ step => by
      obtain ⟨isSet, read, value⟩ := bind_eq_ok.mp step
      rw [getIndex_ok_eq_bit bA i isSet read, pure_eq_ok, Except.ok.injEq] at value
      exact value.symm) finished
  rw [same, foldl_count_eq_countP, Nat.zero_add]
  rfl

/-- `NumTrueBitsBefore` panics as soon as one `GetIndex` below `index` does. -/
theorem numTrueBitsBefore_panicked (bA : Option CompactBitArray) (index : Int) (n : Nat)
    (below : n < index.toNat) (panics : Panicked (getIndex bA n)) :
    Panicked (numTrueBitsBefore bA index) := by
  apply foldlM_panicked
  · intro acc i message _ step
    rcases bind_eq_error.mp step with read | ⟨isSet, _, value⟩
    · exact getIndex_ne_fail bA i message read
    · simp at value
  · exact ⟨n, List.mem_range.mpr below, fun acc => panicked_bind panics⟩

theorem trueBitsBefore_succ (bA : Option CompactBitArray) (n : Nat) :
    trueBitsBefore bA (n + 1) = trueBitsBefore bA n + if bit bA n then 1 else 0 := by
  simp only [trueBitsBefore, List.range_succ, List.countP_append, List.countP_singleton]

theorem bit_of_count_le (bA : Option CompactBitArray) (j : Nat) (past : count bA ≤ j) :
    bit bA j = false := by
  cases bA with
  | none => rfl
  | some bA => simp [bit, Int.not_lt.mpr past]

/-- No bit is set at or past `Count`, so counting further adds nothing. -/
theorem trueBitsBefore_of_count_le (bA : Option CompactBitArray) {m j : Nat}
    (past : count bA ≤ m) (le : m ≤ j) : trueBitsBefore bA j = trueBitsBefore bA m := by
  induction j, le using Nat.le_induction with
  | base => rfl
  | succ j le induction =>
      rw [trueBitsBefore_succ, bit_of_count_le bA j (by omega), induction]
      rfl

theorem getIndex_of_count_le (bA : Option CompactBitArray) (i : Int) (past : count bA ≤ i) :
    getIndex bA i = .ok false := by
  cases bA with
  | none => rfl
  | some bA => simp [getIndex, past]

/-! ## `SetIndex` and `NewCompactBitArray` -/

theorem setIndex_true (bA : CompactBitArray) (wellSized : bA.WellSized) (n : Nat)
    (below : (n : Int) < count (some bA)) :
    setIndex (some bA) n true = .ok (some (setBit bA n), true) := by
  have inside := byte_index_lt_length bA wellSized n below
  simp only [setIndex, if_neg (Int.not_le.mpr below), div_natCast_eight,
    index_natCast_of_lt _ _ inside, ok_bind, if_true, pure_eq_ok, Int.toNat_natCast]
  rw [setBit, List.getD_eq_getElem _ _ inside]

theorem setIndex_of_count_le (bA : Option CompactBitArray) (i : Int) (v : Bool)
    (past : count bA ≤ i) : setIndex bA i v = .ok (bA, false) := by
  cases bA with
  | none => rfl
  | some bA => simp [setIndex, past]

@[simp] theorem setBit_extraBitsStored (bA : CompactBitArray) (n : Nat) :
    (setBit bA n).extraBitsStored = bA.extraBitsStored := rfl

theorem setBit_elems (bA : CompactBitArray) (n : Nat) :
    (setBit bA n).elems = bA.elems.set (n / 8) (bA.elems.getD (n / 8) 0 ||| bitMask n) := rfl

@[simp] theorem setBit_elems_length (bA : CompactBitArray) (n : Nat) :
    (setBit bA n).elems.length = bA.elems.length := by
  simp [setBit]

theorem count_setBit (bA : CompactBitArray) (n : Nat) :
    count (some (setBit bA n)) = count (some bA) := by
  simp [count]

theorem wellSized_setBit (bA : CompactBitArray) (wellSized : bA.WellSized) (n : Nat) :
    (setBit bA n).WellSized := wellSized

theorem bit_setBit (bA : CompactBitArray) (wellSized : bA.WellSized) (n j : Nat)
    (below : (n : Int) < count (some bA)) :
    bit (some (setBit bA n)) j = (bit (some bA) j || decide (j = n)) := by
  have inside := byte_index_lt_length bA wellSized n below
  simp only [bit]
  rw [count_setBit, setBit_elems, testBitAt_set_or _ _ _ inside]
  by_cases same : j = n
  · subst same
    simp [below]
  · simp [same]

theorem newCompactBitArray_natCast (n : Nat) (positive : 0 < n) :
    newCompactBitArray n =
      some { extraBitsStored := (n % 8).toUInt32, elems := List.replicate ((n + 7) / 8) 0 } := by
  have extra : ((n : Int) % 8).toNat = n % 8 := by omega
  have length : (((n : Int) + 7) / 8).toNat = (n + 7) / 8 := by omega
  simp only [newCompactBitArray, extra, length]
  rw [if_neg (by omega)]

theorem count_newCompactBitArray (n : Nat) (positive : 0 < n) :
    count (newCompactBitArray n) = n := by
  have small : (n % 8).toUInt32.toNat = n % 8 := by
    simp only [Nat.toUInt32, UInt32.toNat_ofNat']
    omega
  rw [newCompactBitArray_natCast n positive]
  simp only [count]
  split_ifs with noExtra
  · have zero : n % 8 = 0 := by
      have := congrArg UInt32.toNat noExtra
      rw [small] at this
      simpa using this
    simp only [List.length_replicate]
    omega
  · have nonzero : n % 8 ≠ 0 := by
      intro zero
      apply noExtra
      simp [zero]
    simp only [List.length_replicate, small]
    omega

theorem newCompactBitArray_wellSized (n : Nat) (positive : 0 < n) :
    ∀ b ∈ newCompactBitArray n, b.WellSized := by
  intro b member
  rw [newCompactBitArray_natCast n positive, Option.mem_def, Option.some.injEq] at member
  subst member
  unfold WellSized
  simp only [Nat.toUInt32, UInt32.toNat_ofNat']
  omega

theorem bit_newCompactBitArray (n j : Nat) : bit (newCompactBitArray n) j = false := by
  by_cases positive : 0 < n
  · rw [newCompactBitArray_natCast n positive]
    simp [bit, testBitAt, List.getD_eq_getElem?_getD, List.getElem?_replicate]
    split_ifs <;> simp
  · have none : newCompactBitArray n = none := by
      simp [newCompactBitArray]
      omega
    rw [none]
    rfl

end CompactBitArray

end CoreSdk.Crypto
