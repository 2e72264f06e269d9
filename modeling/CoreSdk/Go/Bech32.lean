import Mathlib.Data.List.Basic

/-!
# Bech32 decoding of btcutil

`bech32.Decode` reads a text of 8 to 90 printable ASCII bytes, all of one case,
as a human-readable part, a separator `1` (the last one) and characters of
`charset`, each a group of five bits; the last six groups are a BCH checksum
over both parts, which `bech32VerifyChecksum` tests with `bech32Polymod`.
`ConvertBits(data, 5, 8, false)` then regroups the bits into bytes and refuses
an incomplete last group of more than four bits or with a bit set.

A Go string is read here as its UTF-8 bytes, as the source indexes it.

Nothing here names the program being modelled.
-/

namespace Go.Bech32

set_option autoImplicit false

/-- The bytes of a Go string. -/
def bytesOf (s : String) : List UInt8 := s.toList.flatMap String.utf8EncodeChar

/-- The string of ASCII bytes. -/
def ofBytes (bs : List UInt8) : String := String.ofList (bs.map fun b => Char.ofNat b.toNat)

/-- `charset`: the character of each group of five bits. -/
def charset : List UInt8 := bytesOf "qpzry9x8gf2tvdw0s3jn54khce6mua7l"

/-- `gen`: the generators of the checksum's code. -/
def gen : List Nat := [0x3b6a57b2, 0x26508e6d, 0x1ea119fa, 0x3d4233dd, 0x2a1462b3]

/-- The inner loop of `bech32Polymod`: `chk ^= gen[i]` for each bit `i` of `b`. -/
def mixGen (b chk : Nat) : List Nat → Nat
  | [] => chk
  | g :: gs => mixGen (b >>> 1) (if b &&& 1 = 1 then chk ^^^ g else chk) gs

/-- `bech32Polymod`. -/
def polymod (values : List Nat) : Nat :=
  values.foldl (fun chk v => mixGen (chk >>> 25) (((chk &&& 0x1ffffff) <<< 5) ^^^ v) gen) 1

/-- `bech32HrpExpand`: the high three bits of each byte, a zero, then the low five. -/
def hrpExpand (hrp : List UInt8) : List Nat :=
  hrp.map (fun b => b.toNat >>> 5) ++ 0 :: hrp.map (fun b => b.toNat &&& 31)

/-- `bech32VerifyChecksum`. -/
def verifyChecksum (hrp data : List UInt8) : Bool :=
  polymod (hrpExpand hrp ++ data.map UInt8.toNat) = 1

/-- `bech32Checksum`: the six groups that make `polymod` of the whole one. -/
def checksum (hrp data : List UInt8) : List UInt8 :=
  let mod := polymod (hrpExpand hrp ++ data.map UInt8.toNat ++ [0, 0, 0, 0, 0, 0]) ^^^ 1
  (List.range 6).map fun i => UInt8.ofNat ((mod >>> (5 * (5 - i))) &&& 31)

/-- `toBytes`: the index in `charset` of each character. -/
def toBytes : List UInt8 → Except String (List UInt8)
  | [] => .ok []
  | c :: chars =>
    match charset.idxOf? c with
    | none => .error ("invalid character not part of charset: " ++ toString c.toNat)
    | some index => (toBytes chars).map (UInt8.ofNat index :: ·)

/-- `toChars`: the character of each group, or the first value past `charset`. -/
def toChars : List UInt8 → Option (List UInt8)
  | [] => some []
  | b :: data => if b.toNat < charset.length then (toChars data).map (charset.getD b.toNat 0 :: ·) else none

/-- `strings.ToLower` of an ASCII byte. -/
def lowerByte (b : UInt8) : UInt8 := if 65 ≤ b ∧ b ≤ 90 then b + 32 else b

/-- `strings.ToUpper` of an ASCII byte. -/
def upperByte (b : UInt8) : UInt8 := if 97 ≤ b ∧ b ≤ 122 then b - 32 else b

/-- `strings.LastIndexByte`, `none` where the source returns `-1`. -/
def lastIndexByte (s : List UInt8) (c : UInt8) : Option Nat :=
  (s.reverse.idxOf? c).map fun i => s.length - 1 - i

/-- `Decode`: the human-readable part and the data groups without the checksum. -/
def decode (bech : String) : Except String (String × List UInt8) :=
  let bytes := bytesOf bech
  if bytes.length < 8 ∨ 90 < bytes.length then
    .error ("invalid bech32 string length " ++ toString bytes.length)
  else
    match bytes.find? (fun b => b < 33 ∨ 126 < b) with
    | some b => .error ("invalid character in string: \x27" ++ (Char.ofNat b.toNat).toString ++ "\x27")
    | none =>
      let lower := bytes.map lowerByte
      if bytes ≠ lower ∧ bytes ≠ bytes.map upperByte then
        .error "string not all lowercase or all uppercase"
      else
        -- the rest of the decoding reads the lowercase text
        match lastIndexByte lower 49 with
        | none => .error "invalid index of 1"
        | some one =>
          if one < 1 ∨ lower.length < one + 7 then .error "invalid index of 1"
          else
            let hrp := lower.take one
            match toBytes (lower.drop (one + 1)) with
            | .error err => .error ("failed converting data to bytes: " ++ err)
            | .ok decoded =>
              let payload := decoded.take (decoded.length - 6)
              if !verifyChecksum hrp decoded then
                let moreInfo :=
                  match toChars (checksum hrp payload) with
                  | some expected =>
                    "Expected " ++ ofBytes expected ++ ", got " ++ ofBytes (lower.drop (lower.length - 6)) ++ "."
                  | none => ""
                .error ("checksum failed. " ++ moreInfo)
              else .ok (ofBytes hrp, payload)

/-- The loop of `ConvertBits(data, 5, 8, false)`: `nextByte` holds the
`filledBits` bits read since the last whole byte; each group puts its five bits
after them, and eight bits make a byte of the result. -/
def regroup (nextByte filledBits : Nat) : List UInt8 → List UInt8 × Nat × Nat
  | [] => ([], nextByte, filledBits)
  | b :: data =>
    -- the source shifts the byte left by three, so only its low five bits count
    let bits := nextByte * 32 + b.toNat % 32
    if 8 ≤ filledBits + 5 then
      let rest := regroup (bits % 2 ^ (filledBits - 3)) (filledBits - 3) data
      (UInt8.ofNat (bits / 2 ^ (filledBits - 3)) :: rest.1, rest.2)
    else regroup bits (filledBits + 5) data

/-- `ConvertBits(data, 5, 8, false)`. -/
def convertBits (data : List UInt8) : Except String (List UInt8) :=
  match regroup 0 0 data with
  | (regrouped, nextByte, filledBits) =>
    if 0 < filledBits ∧ (4 < filledBits ∨ nextByte ≠ 0) then .error "invalid incomplete group"
    else .ok regrouped

end Go.Bech32
