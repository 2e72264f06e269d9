import Mathlib.Data.List.Basic
import CoreSdk.Go.Runtime

/-!
# Hexadecimal text of `encoding/hex`

`Encode` writes each byte as two lowercase digits, the high half first. `Decode`
reads the digits two at a time, of either case; it stops at the first byte that
is not a digit with `InvalidByteError` of that byte, and a text of odd length
whose digits are all valid ends with `ErrLength` (the decoder of Go 1.16).

Decoding what `Encode` wrote gives the bytes back (`decode_encode`), and a text
cut after an even number of digits decodes as its two parts do
(`decode_append`), which is how the decoders of fixed layouts of digits are read.

Nothing here names the program being modelled.
-/

namespace Go.Hex

set_option autoImplicit false

/-- `hextable[v]` of `0123456789abcdef`, for a value below sixteen. -/
def hexDigit (v : UInt8) : UInt8 := if v < 10 then 48 + v else 87 + v

/-- `Encode`: two digits for each byte, the high half first. -/
def encode (src : List UInt8) : List UInt8 :=
  src.flatMap fun (b : UInt8) => [hexDigit (b >>> 4), hexDigit (b &&& 0x0f)]

/-- `fromHexChar`: the value of a digit of either case. -/
def fromHexChar (c : UInt8) : Option UInt8 :=
  if 48 ≤ c ∧ c ≤ 57 then some (c - 48)
  else if 97 ≤ c ∧ c ≤ 102 then some (c - 97 + 10)
  else if 65 ≤ c ∧ c ≤ 70 then some (c - 65 + 10)
  else none

/-- The errors of `Decode`: `InvalidByteError` and `ErrLength`. -/
inductive HexError where
  | invalidByteError (b : UInt8)
  | errLength
  deriving DecidableEq, Repr

/-- `Decode`: the bytes of the pairs of digits, or the first error. -/
def decode : List UInt8 → Except HexError (List UInt8)
  | [] => .ok []
  | [c] =>
    -- a last digit alone is checked before the length is reported
    match fromHexChar c with
    | some _ => .error .errLength
    | none => .error (.invalidByteError c)
  | p :: q :: rest =>
    match fromHexChar p, fromHexChar q with
    | none, _ => .error (.invalidByteError p)
    | some _, none => .error (.invalidByteError q)
    | some a, some b => (decode rest).map fun bytes => ((a <<< 4) ||| b) :: bytes

@[simp] theorem encode_nil : encode [] = [] := rfl

@[simp] theorem encode_cons (b : UInt8) (src : List UInt8) :
    encode (b :: src) = hexDigit (b >>> 4) :: hexDigit (b &&& 0x0f) :: encode src := rfl

theorem encode_append (front back : List UInt8) : encode (front ++ back) = encode front ++ encode back :=
  List.flatMap_append

@[simp] theorem length_encode (src : List UInt8) : (encode src).length = 2 * src.length := by
  induction src with
  | nil => rfl
  | cons b rest induction =>
    rw [encode_cons, List.length_cons, List.length_cons, induction, List.length_cons]
    omega

theorem fromHexChar_hexDigit {v : UInt8} (small : v < 16) : fromHexChar (hexDigit v) = some v := by
  -- sixteen digits, each read back by the range it falls in
  have digits : ∀ n : Fin 16, fromHexChar (hexDigit n.val.toUInt8) = some n.val.toUInt8 := by decide
  have below : v.toNat < 16 := UInt8.lt_iff_toNat_lt.mp small
  simpa using digits ⟨v.toNat, below⟩

theorem byte_halves (b : UInt8) : ((b >>> 4) <<< 4) ||| (b &&& 0x0f) = b := by
  have bytes : ∀ n : Fin 256, ((n.val.toUInt8 >>> 4) <<< 4) ||| (n.val.toUInt8 &&& 0x0f) = n.val.toUInt8 := by
    decide +kernel
  simpa using bytes ⟨b.toNat, b.toNat_lt⟩

theorem high_lt (b : UInt8) : b >>> 4 < 16 := by
  rw [UInt8.lt_iff_toNat_lt, UInt8.toNat_shiftRight]
  have := b.toNat_lt
  simp only [UInt8.reduceToNat, Nat.reduceMod, Nat.shiftRight_eq_div_pow]
  omega

theorem low_lt (b : UInt8) : b &&& 0x0f < 16 := by
  rw [UInt8.lt_iff_toNat_lt, UInt8.toNat_and]
  exact Nat.lt_of_le_of_lt Nat.and_le_right (by decide)

theorem decode_encode (src : List UInt8) : decode (encode src) = .ok src := by
  induction src with
  | nil => rfl
  | cons b rest induction =>
    rw [encode_cons, decode, fromHexChar_hexDigit (high_lt b), fromHexChar_hexDigit (low_lt b)]
    dsimp only
    rw [induction, byte_halves]
    rfl

/-- A text cut after an even number of digits decodes as its two parts do, the
error of the first part coming first. -/
theorem decode_append (back : List UInt8) :
    ∀ front : List UInt8, front.length % 2 = 0 →
      decode (front ++ back) = (do let a ← decode front; let b ← decode back; pure (a ++ b))
  | [], _ => by
    rw [List.nil_append, decode]
    cases decode back <;> rfl
  | [_], even => by simp at even
  | p :: q :: rest, even => by
    have restEven : rest.length % 2 = 0 := by
      simp only [List.length_cons] at even
      omega
    rw [List.cons_append, List.cons_append, decode, decode]
    -- the first pair is read the same way in both, and the rest by the induction
    cases fromHexChar p with
    | none => rfl
    | some a =>
      cases fromHexChar q with
      | none => rfl
      | some b =>
        dsimp only
        rw [decode_append back rest restEven]
        cases decode rest with
        | error err => rfl
        | ok bytes =>
          cases decode back <;> rfl

theorem length_of_decode : ∀ {text bytes : List UInt8}, decode text = .ok bytes → text.length = 2 * bytes.length
  | [], bytes, decoded => by
    rw [decode] at decoded
    cases decoded
    rfl
  | [c], bytes, decoded => by
    rw [decode] at decoded
    split at decoded <;> cases decoded
  | p :: q :: rest, bytes, decoded => by
    rw [decode] at decoded
    cases first : fromHexChar p with
    | none =>
      rw [first] at decoded
      cases decoded
    | some a =>
      cases second : fromHexChar q with
      | none =>
        rw [first, second] at decoded
        cases decoded
      | some b =>
        rw [first, second] at decoded
        dsimp only at decoded
        cases restDecoded : decode rest with
        | error err =>
          rw [restDecoded] at decoded
          cases decoded
        | ok restBytes =>
          rw [restDecoded] at decoded
          cases decoded
          rw [List.length_cons, List.length_cons, List.length_cons, length_of_decode restDecoded]
          omega

/-- The two parts of a text that decodes, cut after an even number of digits. -/
theorem decode_append_eq_ok {front back bytes : List UInt8} (even : front.length % 2 = 0)
    (decoded : decode (front ++ back) = .ok bytes) :
    decode front = .ok (bytes.take (front.length / 2)) ∧ decode back = .ok (bytes.drop (front.length / 2)) := by
  rw [decode_append back front even] at decoded
  cases frontDecoded : decode front with
  | error err =>
    rw [frontDecoded] at decoded
    cases decoded
  | ok frontBytes =>
    cases backDecoded : decode back with
    | error err =>
      rw [frontDecoded, backDecoded] at decoded
      cases decoded
    | ok backBytes =>
      rw [frontDecoded, backDecoded] at decoded
      cases decoded
      -- the first part decodes to half as many bytes as it has digits
      have half : front.length / 2 = frontBytes.length := by
        rw [length_of_decode frontDecoded]
        omega
      rw [half, List.take_left, List.drop_left]
      exact ⟨rfl, rfl⟩

end Go.Hex
