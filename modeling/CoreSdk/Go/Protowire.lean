import Mathlib

/-!
# Protocol buffer wire format

The readers of `google.golang.org/protobuf/encoding/protowire` at the version
the module requires: `ConsumeVarint`, `ConsumeTag`, `ConsumeBytes`, the fixed
width readers and `ConsumeFieldValue`, which walks a group to its end marker.
Each returns the number of bytes it read, or a negative error code.

A varint or a tag that is read takes at least one byte and at most what it is
given (`consumeVarint_bounds`, `consumeTag_bounds`). A truncated value is an error:
`consumeFieldValue_bytes_nil` is the case of a length-delimited field cut
before its length.
-/

namespace Protowire

set_option autoImplicit false

/-- The error codes, `errCodeTruncated` to `errCodeEndGroup`. -/
def errCodeTruncated : Int := -1
def errCodeFieldNumber : Int := -2
def errCodeOverflow : Int := -3
def errCodeReserved : Int := -4
def errCodeEndGroup : Int := -5

/-- The wire types. -/
def varintType : Nat := 0
def fixed64Type : Nat := 1
def bytesType : Nat := 2
def startGroupType : Nat := 3
def endGroupType : Nat := 4
def fixed32Type : Nat := 5

/-- The loop of `ConsumeVarint` from the byte at index `i`, with the value read
so far: seven bits a byte, at most ten bytes, and the tenth below 2. -/
def consumeVarintFrom (i acc : Nat) : List UInt8 → Nat × Int
  | [] => (0, errCodeTruncated)
  | y :: rest =>
      if i = 9 then
        if y.toNat < 2 then (acc + y.toNat * 2 ^ 63, 10) else (0, errCodeOverflow)
      else if y.toNat < 0x80 then (acc + y.toNat * 2 ^ (7 * i), i + 1)
      else consumeVarintFrom (i + 1) (acc + (y.toNat - 0x80) * 2 ^ (7 * i)) rest

/-- `ConsumeVarint`. -/
def consumeVarint (b : List UInt8) : Nat × Int := consumeVarintFrom 0 0 b

/-- `DecodeTag`: a field number past `math.MaxInt32` is -1. -/
def decodeTag (x : Nat) : Int × Nat :=
  if x / 8 > 2 ^ 31 - 1 then (-1, 0) else (x / 8, x % 8)

/-- `ConsumeTag`: the field number, the wire type and the length. -/
def consumeTag (b : List UInt8) : Int × Nat × Int :=
  let varint := consumeVarint b
  if varint.2 < 0 then (0, 0, varint.2)
  else
    let tag := decodeTag varint.1
    if tag.1 < 1 then (0, 0, errCodeFieldNumber) else (tag.1, tag.2, varint.2)

/-- `ConsumeFixed32`, its length. -/
def consumeFixed32 (b : List UInt8) : Int := if b.length < 4 then errCodeTruncated else 4

/-- `ConsumeFixed64`, its length. -/
def consumeFixed64 (b : List UInt8) : Int := if b.length < 8 then errCodeTruncated else 8

/-- `ConsumeBytes`, its length: the length prefix and that many bytes. -/
def consumeBytes (b : List UInt8) : Int :=
  let varint := consumeVarint b
  if varint.2 < 0 then varint.2
  else if varint.1 > (b.drop varint.2.toNat).length then errCodeTruncated
  else varint.2 + varint.1

theorem consumeVarintFrom_bounds (i acc : Nat) (b : List UInt8) (inside : i ≤ 9)
    (read : 0 ≤ (consumeVarintFrom i acc b).2) :
    i < (consumeVarintFrom i acc b).2 ∧ (consumeVarintFrom i acc b).2 ≤ i + b.length := by
  induction b generalizing i acc with
  | nil => simp [consumeVarintFrom, errCodeTruncated] at read
  | cons y rest induction =>
      unfold consumeVarintFrom at read ⊢
      split_ifs at read ⊢ with last small shortStop
      · simp only [List.length_cons]
        omega
      · simp [errCodeOverflow] at read
      · simp only [List.length_cons]
        omega
      · have below := induction (i + 1) _ (by omega) read
        simp only [List.length_cons]
        omega

/-- A varint read reads at least one byte and at most all of them. -/
theorem consumeVarint_bounds (b : List UInt8) (read : 0 ≤ (consumeVarint b).2) :
    0 < (consumeVarint b).2 ∧ (consumeVarint b).2 ≤ b.length := by
  unfold consumeVarint at read ⊢
  have bounds := consumeVarintFrom_bounds 0 0 b (by omega) read
  omega

theorem consumeTag_bounds (b : List UInt8) (read : 0 ≤ (consumeTag b).2.2) :
    0 < (consumeTag b).2.2 ∧ (consumeTag b).2.2 ≤ b.length := by
  unfold consumeTag at read ⊢
  dsimp only at read ⊢
  split_ifs at read ⊢ with failed invalid
  · exact absurd (show 0 ≤ (consumeVarint b).2 from read) (Int.not_le.mpr failed)
  · simp [errCodeFieldNumber] at read
  · exact consumeVarint_bounds b (by omega)

mutual

/-- `ConsumeFieldValue`, the length of the value of a field whose tag is read. -/
def consumeFieldValue (num : Int) (typ : Nat) (b : List UInt8) : Int :=
  if typ = varintType then (consumeVarint b).2
  else if typ = fixed32Type then consumeFixed32 b
  else if typ = fixed64Type then consumeFixed64 b
  else if typ = bytesType then consumeBytes b
  else if typ = startGroupType then consumeGroup num b
  else if typ = endGroupType then errCodeEndGroup
  else errCodeReserved
termination_by (b.length, 1)

/-- The loop of `ConsumeFieldValue` over the fields of a group, up to the end
marker of field `num`: the length read, the marker included. -/
def consumeGroup (num : Int) (b : List UInt8) : Int :=
  if read : (consumeTag b).2.2 < 0 then (consumeTag b).2.2
  else
    have bounds := consumeTag_bounds b (by omega)
    if (consumeTag b).2.1 = endGroupType then
      if num ≠ (consumeTag b).1 then errCodeEndGroup else (consumeTag b).2.2
    else
      let m := consumeFieldValue (consumeTag b).1 (consumeTag b).2.1 (b.drop (consumeTag b).2.2.toNat)
      if m < 0 then m
      else
        let rest := consumeGroup num ((b.drop (consumeTag b).2.2.toNat).drop m.toNat)
        if rest < 0 then rest else (consumeTag b).2.2 + m + rest
termination_by (b.length, 0)
decreasing_by
  all_goals simp only [List.length_drop]
  · exact Prod.Lex.left _ _ (by omega)
  · exact Prod.Lex.left _ _ (by omega)

end

theorem consumeFieldValue_bytesType (num : Int) (b : List UInt8) :
    consumeFieldValue num bytesType b = consumeBytes b := by
  rw [consumeFieldValue]
  rfl

/-- A length-delimited value cut before its length is truncated. -/
theorem consumeFieldValue_bytes_nil (num : Int) : consumeFieldValue num bytesType [] = errCodeTruncated := by
  rw [consumeFieldValue_bytesType]
  rfl

/-! ### One-byte tags and lengths -/

/-- A byte below `0x80` is a whole varint. -/
theorem consumeVarint_of_lt (y : UInt8) (rest : List UInt8) (small : y.toNat < 0x80) :
    consumeVarint (y :: rest) = (y.toNat, 1) := by
  rw [consumeVarint, consumeVarintFrom, if_neg (by omega), if_pos small]
  simp

/-- A one-byte tag: the field number is the byte over 8 and the wire type its low three bits. -/
theorem consumeTag_of_lt (y : UInt8) (rest : List UInt8) (small : y.toNat < 0x80) (numbered : 8 ≤ y.toNat) :
    consumeTag (y :: rest) = (((y.toNat / 8 : Nat) : Int), y.toNat % 8, 1) := by
  have field : ¬(y.toNat / 8 > 2 ^ 31 - 1) := by omega
  simp only [consumeTag, consumeVarint_of_lt y rest small, decodeTag, if_neg field]
  rw [if_neg (by omega), if_neg (by omega), Prod.mk.injEq]
  exact ⟨by omega, rfl⟩

/-- A length-delimited value with a one-byte length: the length and the bytes it counts. -/
theorem consumeFieldValue_of_short (num : Int) (y : UInt8) (content rest : List UInt8) (small : y.toNat < 0x80)
    (counted : content.length = y.toNat) :
    consumeFieldValue num bytesType (y :: (content ++ rest)) = ((y :: content).length : Int) := by
  rw [consumeFieldValue_bytesType, consumeBytes]
  simp only [consumeVarint_of_lt y _ small, List.length_cons]
  rw [if_neg (by omega), if_neg (by simp; omega)]
  omega

/-- What a caller of the readers relies on: each returns a length or a negative
error code, and a tag that is read takes at least one byte. -/
structure Readers where
  consumeTag : List UInt8 → Int × Nat × Int
  consumeVarint : List UInt8 → Nat × Int
  consumeFieldValue : Int → Nat → List UInt8 → Int
  consumeTag_pos : ∀ b, 0 ≤ (consumeTag b).2.2 → 0 < (consumeTag b).2.2

/-- The readers of this module. -/
def readers : Readers :=
  ⟨consumeTag, consumeVarint, consumeFieldValue, fun b read => (consumeTag_bounds b read).1⟩

/-- What protowire documents for a field with a one-byte tag and a one-byte
length: a byte below `0x80` is a whole varint, a tag of one such byte is its
field number and wire type, and a length-delimited value is its length byte
and the bytes it counts. -/
structure Readers.ShortFields (wire : Readers) : Prop where
  tag : ∀ (y : UInt8) (rest : List UInt8), y.toNat < 0x80 → 8 ≤ y.toNat →
    wire.consumeTag (y :: rest) = (((y.toNat / 8 : Nat) : Int), y.toNat % 8, 1)
  varint : ∀ (y : UInt8) (rest : List UInt8), y.toNat < 0x80 → (wire.consumeVarint (y :: rest)).2 = 1
  bytes : ∀ (num : Int) (y : UInt8) (content rest : List UInt8), y.toNat < 0x80 → content.length = y.toNat →
    wire.consumeFieldValue num bytesType (y :: (content ++ rest)) = ((y :: content).length : Int)

theorem readers_shortFields : readers.ShortFields where
  tag := consumeTag_of_lt
  varint y rest small := by
    show (consumeVarint (y :: rest)).2 = 1
    rw [consumeVarint_of_lt y rest small]
  bytes := consumeFieldValue_of_short

end Protowire
