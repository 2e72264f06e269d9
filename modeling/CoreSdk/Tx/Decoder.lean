import CoreSdk.Tx.Builder
import CoreSdk.Codec.UnknownProto

/-!
# Decoding a transaction

`DefaultTxDecoder` (`types/tx/decoder.go`) first rejects unknown fields in the
raw bytes, read as a `TxRaw`, and then decodes them. It does the same for the
body, where unknown non-critical fields are allowed and reported, and for the
auth info. The wrapper it returns caches the body and auth info bytes as they
came (`defaultTxDecoder_eq_ok`).

The first check runs on bytes nothing has looked at yet, so a truncated field
of the raw transaction makes the decoder panic
(`defaultTxDecoder_panics_on_truncated_value`).

The codec's `UnmarshalBinaryBare` of each message is a parameter.
-/

namespace CoreSdk.Tx

open Go Protowire

set_option autoImplicit false

-- `Tx` is the source's name for the message this namespace is named after
set_option linter.dupNamespace false

/-- `TxRaw`: the body and the auth info as bytes, and the signatures. -/
structure TxRaw where
  bodyBytes : Bytes
  authInfoBytes : Bytes
  signatures : List Bytes

section Decoder

variable {Msg : Type} (wire : Readers) (registry : Codec.Registry Msg) (txRawMsg txBodyMsg authInfoMsg : Msg)
  (unmarshalTxRaw : Bytes → Result TxRaw) (unmarshalTxBody : Bytes → Result TxBody)
  (unmarshalAuthInfo : Bytes → Result AuthInfo)

/-- `DefaultTxDecoder`, with `txBodyHasUnknownNonCriticals` returned beside the
wrapper. -/
def defaultTxDecoder (txBytes : Bytes) : Result (Wrapper × Bool) := do
  Codec.rejectUnknownFieldsStrict wire registry txBytes txRawMsg
  let raw ← unmarshalTxRaw txBytes
  let bodyCheck := Codec.rejectUnknownFields wire registry raw.bodyBytes txBodyMsg true
  bodyCheck.2
  let body ← unmarshalTxBody raw.bodyBytes
  Codec.rejectUnknownFieldsStrict wire registry raw.authInfoBytes authInfoMsg
  let authInfo ← unmarshalAuthInfo raw.authInfoBytes
  pure (⟨⟨body, authInfo, raw.signatures⟩, raw.bodyBytes, raw.authInfoBytes⟩, bodyCheck.1)

/-- What a decoded transaction has passed: the three checks and the three
decodings, and the wrapper is made of what they returned. -/
theorem defaultTxDecoder_eq_ok {txBytes : Bytes} {w : Wrapper} {flag : Bool}
    (decoded : defaultTxDecoder wire registry txRawMsg txBodyMsg authInfoMsg unmarshalTxRaw unmarshalTxBody
      unmarshalAuthInfo txBytes = .ok (w, flag)) :
    ∃ raw body authInfo, unmarshalTxRaw txBytes = .ok raw ∧ unmarshalTxBody raw.bodyBytes = .ok body ∧
      unmarshalAuthInfo raw.authInfoBytes = .ok authInfo ∧
      w = ⟨⟨body, authInfo, raw.signatures⟩, raw.bodyBytes, raw.authInfoBytes⟩ ∧
      Codec.rejectUnknownFieldsStrict wire registry txBytes txRawMsg = .ok () ∧
      Codec.rejectUnknownFields wire registry raw.bodyBytes txBodyMsg true = (flag, .ok ()) ∧
      Codec.rejectUnknownFieldsStrict wire registry raw.authInfoBytes authInfoMsg = .ok () := by
  obtain ⟨⟨⟩, rawChecked, decoded⟩ := bind_eq_ok.mp decoded
  obtain ⟨raw, parsed, decoded⟩ := bind_eq_ok.mp decoded
  obtain ⟨⟨⟩, bodyChecked, decoded⟩ := bind_eq_ok.mp decoded
  obtain ⟨body, bodyParsed, decoded⟩ := bind_eq_ok.mp decoded
  obtain ⟨⟨⟩, authInfoChecked, decoded⟩ := bind_eq_ok.mp decoded
  obtain ⟨authInfo, authInfoParsed, decoded⟩ := bind_eq_ok.mp decoded
  obtain ⟨rfl, rfl⟩ := Prod.mk.inj (Except.ok.inj decoded)
  refine ⟨raw, body, authInfo, parsed, bodyParsed, authInfoParsed, rfl, rawChecked, ?_, authInfoChecked⟩
  rw [← bodyChecked]

/-- Bytes that start with a known field of `TxRaw` whose value is cut short:
the decoder panics in its first check, before it decodes anything. -/
theorem defaultTxDecoder_panics_on_truncated_value (table : Int → Option Codec.FieldDescriptor)
    (described : registry.descriptorInfo txRawMsg = .ok table) (tagBytes rest : Bytes) (num : Int) (typ : Nat)
    (fieldDesc : Codec.FieldDescriptor)
    (tagged : wire.consumeTag (tagBytes ++ rest) = (num, typ, (tagBytes.length : Int)))
    (known : table num = some fieldDesc) (encodable : Codec.canEncodeType typ fieldDesc.type = true)
    (truncated : wire.consumeFieldValue num typ rest < 0) :
    defaultTxDecoder wire registry txRawMsg txBodyMsg authInfoMsg unmarshalTxRaw unmarshalTxBody
        unmarshalAuthInfo (tagBytes ++ rest) =
      panicWith ("runtime error: slice bounds out of range [:" ++
        toString (wire.consumeFieldValue num typ rest) ++ "]") := by
  have panics : Codec.rejectUnknownFieldsStrict wire registry (tagBytes ++ rest) txRawMsg =
      panicWith ("runtime error: slice bounds out of range [:" ++
        toString (wire.consumeFieldValue num typ rest) ++ "]") := by
    rw [Codec.rejectUnknownFieldsStrict,
      Codec.rejectUnknownFields_of_described wire registry (Codec.length_ne_zero_of_tagged wire tagged) described,
      Codec.rejectLoop_panics_on_truncated_value wire registry table txRawMsg false false tagBytes rest num
      typ fieldDesc tagged known encodable truncated]
  rw [defaultTxDecoder, panics]
  rfl

end Decoder

-- the single byte \x0a, the tag of `body_bytes` with nothing after it
example :
    defaultTxDecoder readers Codec.txRegistry .txRaw .txBody .authInfo (fun _ => fail "unexpected EOF")
        (fun _ => fail "unexpected EOF") (fun _ => fail "unexpected EOF") [0x0A] =
      panicWith "runtime error: slice bounds out of range [:-1]" := by
  have truncated : readers.consumeFieldValue 1 2 [] = -1 := consumeFieldValue_bytes_nil 1
  have panics := defaultTxDecoder_panics_on_truncated_value readers Codec.txRegistry .txRaw .txBody .authInfo
    (fun _ => fail "unexpected EOF") (fun _ => fail "unexpected EOF") (fun _ => fail "unexpected EOF")
    Codec.TxMessage.txRaw.fields rfl [0x0A] [] 1 2 ⟨.bytes, []⟩ (by decide) rfl (by decide)
    (by rw [truncated]; decide)
  rw [truncated] at panics
  exact panics

end CoreSdk.Tx
