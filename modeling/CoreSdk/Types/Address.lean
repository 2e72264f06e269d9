import CoreSdk.Go.Bech32
import CoreSdk.Go.Runtime
import CoreSdk.Types.Errors

/-!
# Bech32 addresses

`DecodeAndConvert` (`common/bech32`), `GetFromBech32` and `AccAddressFromBech32`
(`types/address.go`). The account prefix is `prefixCfg.AccountAddr` of `env.go`,
`iaa` unless the client's configuration sets another with `setAddrPrefix`.

The emptiness check of `GetFromBech32` only picks the message: `Decode` refuses
every text shorter than eight bytes, so an address is accepted exactly when it
decodes under the prefix and its groups make whole bytes (`getFromBech32_eq_ok`).
-/

namespace CoreSdk.Types

open Go

set_option autoImplicit false

/-- `DecodeAndConvert`. -/
def decodeAndConvert (bech : String) : Except String (String × List UInt8) := do
  let (hrp, data) ← Bech32.decode bech
  let converted ← Bech32.convertBits data
  pure (hrp, converted)

/-- `GetFromBech32`. -/
def getFromBech32 (bech32str addrPrefix : String) : Except String (List UInt8) :=
  if bech32str.utf8ByteSize = 0 then .error "decoding Bech32 address failed: must provide an address"
  else do
    let (hrp, bz) ← decodeAndConvert bech32str
    if hrp ≠ addrPrefix then .error ("invalid Bech32 prefix; expected " ++ addrPrefix ++ ", got " ++ hrp)
    else pure bz

/-- `prefixCfg.AccountAddr` as `env.go` sets it: `prefixChain + prefixAccount + prefixAddress`. -/
def defaultAccountAddr : String := "i" ++ "a" ++ "a"

/-- `AccAddressFromBech32` under the account prefix `bech32PrefixAccAddr`; the
error is `Wrap` of the decoding error, read as its text. -/
def accAddressFromBech32 (bech32PrefixAccAddr address : String) : Except String (List UInt8) :=
  (getFromBech32 address bech32PrefixAccAddr).mapError fun err => (wrap (.other err)).desc

theorem decode_empty : Bech32.decode "" = .error "invalid bech32 string length 0" := by
  decide

theorem getFromBech32_eq_ok (bech32str addrPrefix : String) (bz : List UInt8) :
    getFromBech32 bech32str addrPrefix = .ok bz ↔
      ∃ data, Bech32.decode bech32str = .ok (addrPrefix, data) ∧ Bech32.convertBits data = .ok bz := by
  rw [getFromBech32]
  split
  · -- the empty text: both sides fail, the right one in the length check of Decode
    rename_i empty
    rw [String.utf8ByteSize_eq_zero_iff] at empty
    simp [empty, decode_empty]
  · -- past the check, the outcome is that of Decode, then of ConvertBits, then of the prefix test
    cases decoded : Bech32.decode bech32str with
    | error err => simp [decodeAndConvert, decoded, bind, Except.bind]
    | ok parts =>
      obtain ⟨hrp, data⟩ := parts
      cases converted : Bech32.convertBits data with
      | error err => simp [decodeAndConvert, decoded, converted, bind, Except.bind]
      | ok bytes =>
        by_cases samePrefix : hrp = addrPrefix
        · subst samePrefix
          simp [decodeAndConvert, decoded, converted, pure, Except.pure]
        · simp [decodeAndConvert, decoded, converted, samePrefix]

end CoreSdk.Types
