import Mathlib.Data.Nat.Bitwise
import Mathlib.Tactic.Ring

/-!
# Unsigned varints of `encoding/binary`

`PutUvarint` and `Uvarint` of Go's `encoding/binary` at Go 1.16, the version
the module's `go.mod` names: seven bits a byte, the least significant group
first, and the high bit of a byte set when more follow. `Uvarint` returns the
value and the number of bytes read; `0` bytes when the buffer ends inside a
varint, and minus the bytes read when the value does not fit 64 bits. Reading
back what `PutUvarint` wrote returns the value and its length, whatever follows
(`uvarint_putUvarint_append`).

Go's `int(x)` of a `uint64` is here too, as `toInt`, and the big-endian
`PutUint16`, `PutUint32` and `Uint16` of `binary.BigEndian`.

Nothing here names the program being modelled.
-/

namespace Go.Binary

set_option autoImplicit false

/-- Go's `x << s` on `uint64`: zero once the shift reaches the width. -/
def shiftLeft (x : UInt64) (s : Nat) : UInt64 := if s < 64 then x <<< s.toUInt64 else 0

theorem toNat_shiftRight_seven (x : UInt64) : (x >>> 7).toNat = x.toNat / 128 := by
  rw [UInt64.toNat_shiftRight, Nat.shiftRight_eq_div_pow]
  rfl

/-- The loop of `PutUvarint` with `passes` left. A `uint64` is below `0x80`
after nine shifts by seven, so nine passes run the whole loop. -/
def putUvarintFrom : Nat → UInt64 → List UInt8
  | 0, x => [x.toUInt8]
  | passes + 1, x =>
    if x < 0x80 then [x.toUInt8]
    else (x.toUInt8 ||| 0x80) :: putUvarintFrom passes (x >>> 7)

/-- `PutUvarint`, the bytes it writes. -/
def putUvarint (x : UInt64) : List UInt8 := putUvarintFrom 9 x

/-- The loop of `Uvarint` from the byte at index `i`, with the value `x` read so
far and the shift `s` of the next group. -/
def uvarintFrom (x : UInt64) (s i : Nat) : List UInt8 → UInt64 × Int
  | [] => (0, 0)
  | b :: rest =>
    if b < 0x80 then
      if i > 9 ∨ i = 9 ∧ b > 1 then (0, -((i : Int) + 1)) -- overflow
      else (x ||| shiftLeft b.toUInt64 s, i + 1)
    else uvarintFrom (x ||| shiftLeft (b &&& 0x7f).toUInt64 s) (s + 7) (i + 1) rest

/-- `Uvarint`. -/
def uvarint (buf : List UInt8) : UInt64 × Int := uvarintFrom 0 0 0 buf

/-- Or-ing a shifted group above the bits read so far adds it. -/
theorem toNat_or_shiftLeft (acc c : UInt64) {s : Nat} (small : s < 64) (low : acc.toNat < 2 ^ s)
    (fits : c.toNat * 2 ^ s < 2 ^ 64) : (acc ||| shiftLeft c s).toNat = acc.toNat + c.toNat * 2 ^ s := by
  have shifted : (shiftLeft c s).toNat = c.toNat * 2 ^ s := by
    have width : s.toUInt64.toNat % 64 = s := by
      simp only [Nat.toUInt64, UInt64.toNat_ofNat']
      omega
    rw [shiftLeft, if_pos small, UInt64.toNat_shiftLeft, width, Nat.shiftLeft_eq, Nat.mod_eq_of_lt fits]
  rw [UInt64.toNat_or, shifted, ← Nat.shiftLeft_eq, Nat.or_comm, ← Nat.shiftLeft_add_eq_or_of_lt low, Nat.add_comm]

/-- The low seven bits of the byte `PutUvarint` writes for a value it continues. -/
theorem toNat_continued_group (y : UInt64) : ((y.toUInt8 ||| 0x80) &&& 0x7f).toUInt64.toNat = y.toNat % 128 := by
  rw [UInt8.toNat_toUInt64, UInt8.toNat_and, UInt8.toNat_or, UInt64.toNat_toUInt8]
  rw [show (0x7f : UInt8).toNat = 2 ^ 7 - 1 by rfl, Nat.and_two_pow_sub_one_eq_mod, Nat.or_mod_two_pow,
    show (0x80 : UInt8).toNat % 2 ^ 7 = 0 by rfl, Nat.or_zero]
  omega

theorem putUvarintFrom_of_lt (passes : Nat) {x : UInt64} (small : x.toNat < 128) :
    putUvarintFrom passes x = [x.toUInt8] := by
  cases passes with
  | zero => rfl
  | succ passes => rw [putUvarintFrom, if_pos (UInt64.lt_iff_toNat_lt.mpr small)]

theorem putUvarintFrom_succ_of_le (passes : Nat) {x : UInt64} (large : 128 ≤ x.toNat) :
    putUvarintFrom (passes + 1) x = (x.toUInt8 ||| 0x80) :: putUvarintFrom passes (x >>> 7) := by
  rw [putUvarintFrom, if_neg (fun below => absurd (UInt64.lt_iff_toNat_lt.mp below) (by simpa using large))]

theorem mul_two_pow_lt_of_lt {y k : Nat} (fits : y < 2 ^ (64 - k)) (inside : k ≤ 64) : y * 2 ^ k < 2 ^ 64 :=
  calc y * 2 ^ k < 2 ^ (64 - k) * 2 ^ k := Nat.mul_lt_mul_of_pos_right fits (Nat.two_pow_pos k)
    _ = 2 ^ 64 := by rw [← Nat.pow_add, Nat.sub_add_cancel inside]

/-- The last byte of a varint, read at index `i`. -/
theorem uvarintFrom_last (y acc : UInt64) (i : Nat) (rest : List UInt8) (below : y.toNat < 128)
    (inside : i ≤ 9) (low : acc.toNat < 2 ^ (7 * i)) (fits : y.toNat < 2 ^ (64 - 7 * i)) :
    uvarintFrom acc (7 * i) i (y.toUInt8 :: rest) =
      (UInt64.ofNat (acc.toNat + y.toNat * 2 ^ (7 * i)), (i : Int) + 1) := by
  have byte : y.toUInt8.toNat = y.toNat := by rw [UInt64.toNat_toUInt8]; omega
  have last : y.toUInt8 < 0x80 := UInt8.lt_iff_toNat_lt.mpr (by rw [byte]; exact below)
  -- a last byte at index 9 holds the top bit only
  have noOverflow : ¬(i > 9 ∨ i = 9 ∧ y.toUInt8 > 1) := by
    rintro (past | ⟨rfl, big⟩)
    · omega
    · have top : y.toNat < 2 := fits
      have : 1 < y.toUInt8.toNat := UInt8.lt_iff_toNat_lt.mp big
      omega
  have widened : y.toUInt8.toUInt64 = y := UInt64.toNat_inj.mp (by rw [UInt8.toNat_toUInt64, byte])
  rw [uvarintFrom, if_pos last, if_neg noOverflow, widened,
    ← UInt64.ofNat_toNat (x := acc ||| shiftLeft y (7 * i)),
    toNat_or_shiftLeft acc y (by omega) low (mul_two_pow_lt_of_lt fits (by omega))]

/-- Reading what `PutUvarint` wrote, from the group at index `i` on: each byte
adds its group above those read before. The induction is on the passes left,
which is `9 - i`. -/
theorem uvarintFrom_putUvarintFrom_append (rest : List UInt8) (passes : Nat) :
    ∀ (y acc : UInt64) (i : Nat), i + passes = 9 → acc.toNat < 2 ^ (7 * i) → y.toNat < 2 ^ (64 - 7 * i) →
      uvarintFrom acc (7 * i) i (putUvarintFrom passes y ++ rest) =
        (UInt64.ofNat (acc.toNat + y.toNat * 2 ^ (7 * i)), ((i + (putUvarintFrom passes y).length : Nat) : Int)) := by
  induction passes with
  | zero =>
    intro y acc i nine low fits
    have top : y.toNat < 2 := by
      rw [show 64 - 7 * i = 1 by omega, Nat.pow_one] at fits
      exact fits
    rw [putUvarintFrom_of_lt 0 (by omega), List.singleton_append,
      uvarintFrom_last y acc i rest (by omega) (by omega) low fits, List.length_singleton, Nat.cast_succ]
  | succ passes induction =>
    intro x acc i total low fits
    by_cases below : x.toNat < 128
    · rw [putUvarintFrom_of_lt _ below, List.singleton_append,
        uvarintFrom_last x acc i rest below (by omega) low fits, List.length_singleton, Nat.cast_succ]
    have atLeast : 128 ≤ x.toNat := Nat.le_of_not_lt below
    -- a value that needs another byte leaves room for it: this is not the tenth
    have notLast : i ≤ 8 := by
      by_contra tenth
      have nine : i = 9 := by omega
      subst nine
      have top : x.toNat < 2 := fits
      omega
    have continued : ¬(x.toUInt8 ||| 0x80) < 0x80 := by
      rw [UInt8.lt_iff_toNat_lt, UInt8.toNat_or]
      exact Nat.not_lt.mpr (Nat.right_le_or)
    have group := toNat_continued_group x
    have step : 2 ^ (7 * (i + 1)) = 2 ^ (7 * i) * 128 := by
      rw [Nat.mul_add, Nat.pow_add]
    have groupBound : x.toNat % 128 * 2 ^ (7 * i) ≤ 127 * 2 ^ (7 * i) :=
      Nat.mul_le_mul_right _ (by omega)
    have accumulated :
        (acc ||| shiftLeft ((x.toUInt8 ||| 0x80) &&& 0x7f).toUInt64 (7 * i)).toNat =
          acc.toNat + x.toNat % 128 * 2 ^ (7 * i) := by
      rw [toNat_or_shiftLeft _ _ (by omega) low, group]
      rw [group]
      exact mul_two_pow_lt_of_lt (Nat.lt_of_le_of_lt (Nat.mod_le _ _) fits) (by omega)
    have low' : (acc ||| shiftLeft ((x.toUInt8 ||| 0x80) &&& 0x7f).toUInt64 (7 * i)).toNat < 2 ^ (7 * (i + 1)) := by
      rw [accumulated, step]
      omega
    have fits' : (x >>> 7).toNat < 2 ^ (64 - 7 * (i + 1)) := by
      have room : 2 ^ (64 - 7 * i) = 2 ^ (64 - 7 * (i + 1)) * 128 := by
        rw [show 64 - 7 * i = (64 - 7 * (i + 1)) + 7 by omega, Nat.pow_add]
      rw [toNat_shiftRight_seven, Nat.div_lt_iff_lt_mul (by omega), ← room]
      exact fits
    rw [putUvarintFrom_succ_of_le passes atLeast, List.cons_append, uvarintFrom, if_neg continued,
      show 7 * i + 7 = 7 * (i + 1) by omega, induction _ _ (i + 1) (by omega) low' fits', accumulated,
      toNat_shiftRight_seven, List.length_cons]
    -- the group read here and the rest read later make up the value
    have whole : acc.toNat + x.toNat % 128 * 2 ^ (7 * i) + x.toNat / 128 * 2 ^ (7 * (i + 1)) =
        acc.toNat + x.toNat * 2 ^ (7 * i) := by
      rw [step]
      conv_rhs => rw [← Nat.mod_add_div x.toNat 128]
      ring
    rw [whole]
    congr 1
    omega

/-- `Uvarint` reads back the value and the length of what `PutUvarint` wrote,
whatever follows it. -/
theorem uvarint_putUvarint_append (x : UInt64) (rest : List UInt8) :
    uvarint (putUvarint x ++ rest) = (x, ((putUvarint x).length : Int)) := by
  have read := uvarintFrom_putUvarintFrom_append rest 9 x 0 0 rfl (by simp) (by simpa using UInt64.toNat_lt x)
  simpa [uvarint, putUvarint] using read

theorem length_putUvarintFrom_pos (passes : Nat) (x : UInt64) : 0 < (putUvarintFrom passes x).length := by
  cases passes with
  | zero => simp [putUvarintFrom]
  | succ passes =>
    rw [putUvarintFrom]
    split_ifs <;> simp

/-- A value of two groups or more takes two bytes or more. -/
theorem two_le_length_putUvarint {x : UInt64} (large : 128 ≤ x.toNat) : 2 ≤ (putUvarint x).length := by
  have rest := length_putUvarintFrom_pos 8 (x >>> 7)
  rw [putUvarint, putUvarintFrom_succ_of_le 8 large, List.length_cons]
  omega

/-- Go's `int(x)` of a `uint64`: the same 64 bits read in two's complement. -/
def toInt (x : UInt64) : Int := x.toInt64.toInt

theorem toInt_eq (x : UInt64) :
    toInt x = if 2 * x.toNat < 2 ^ 64 then (x.toNat : Int) else (x.toNat : Int) - 2 ^ 64 := by
  rw [toInt, Int64.toInt, UInt64.toBitVec_toInt64, BitVec.toInt_eq_toNat_cond]
  rfl

/-- `binary.BigEndian.PutUint16`: the high byte first. -/
def putUint16 (v : UInt16) : List UInt8 := [(v >>> 8).toUInt8, v.toUInt8]

/-- `binary.BigEndian.PutUint32`: the most significant byte first. -/
def putUint32 (v : UInt32) : List UInt8 := [(v >>> 24).toUInt8, (v >>> 16).toUInt8, (v >>> 8).toUInt8, v.toUInt8]

/-- `binary.BigEndian.Uint16`, of a buffer of two bytes (Go panics on a shorter one). -/
def uint16 (b : List UInt8) : UInt16 := (b.getD 1 0).toUInt16 ||| ((b.getD 0 0).toUInt16 <<< 8)

end Go.Binary
