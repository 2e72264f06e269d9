import CoreSdk.Crypto.CompactBitArray

/-!
# Signature data

The business-logic form of signatures in `types/tx/signing/signature_data.go`:
a `SignatureData` interface value is a single signature with its sign mode, a
multisignature (a bit array of signers and the nested signatures of those
signers, in key order), or the nil interface value, which the decoder of
`sigs.go` leaves in slots that no mode information covers.

`SignMode` is the protobuf enum, an open `int32`: decoders keep values that
have no name.
-/

namespace CoreSdk.Tx

open CoreSdk.Crypto

set_option autoImplicit false

/-- Go's `[]byte`; nil and empty slices are not told apart. -/
abbrev Bytes := List UInt8

/-- `signing.SignMode`. -/
structure SignMode where
  value : Int32
  deriving DecidableEq, Repr

namespace SignMode

def signModeUnspecified : SignMode := ⟨0⟩
def signModeDirect : SignMode := ⟨1⟩
def signModeTextual : SignMode := ⟨2⟩
def signModeLegacyAminoJson : SignMode := ⟨127⟩

end SignMode

/-- `signing.SignatureData`: `*SingleSignatureData`, `*MultiSignatureData` or nil. -/
inductive SignatureData where
  | nil
  | single (signMode : SignMode) (signature : Bytes)
  | multi (bitArray : Option CompactBitArray) (signatures : List SignatureData)
  deriving Repr

/-- `signing.MultiSignatureData`, the argument of multisignature verification. -/
structure MultiSignatureData where
  bitArray : Option CompactBitArray
  signatures : List SignatureData

/-- `signing.SignatureV2`, over the key type of the caller. -/
structure SignatureV2 (Key : Type) where
  pubKey : Option Key
  data : SignatureData
  sequence : UInt64

namespace SignatureData

/-- No nil interface value anywhere in the tree: the trees that the encoders accept. -/
inductive NoNil : SignatureData → Prop
  | single (signMode : SignMode) (signature : Bytes) : NoNil (.single signMode signature)
  | multi (bitArray : Option CompactBitArray) (signatures : List SignatureData) :
      (∀ child ∈ signatures, NoNil child) → NoNil (.multi bitArray signatures)

end SignatureData

/-! ## The descriptor encoding of `signature.go` -/

/-- A `*SignatureDescriptor_Data`: the nil pointer, a value whose `Sum` is nil,
`SignatureDescriptor_Data_Single` or `SignatureDescriptor_Data_Multi`. -/
inductive SignatureDescriptorData where
  | nil
  | empty
  | single (mode : SignMode) (signature : Bytes)
  | multi (bitarray : Option CompactBitArray) (signatures : List SignatureDescriptorData)
  deriving Repr

open Go

/-- The message of the `default` cases of both conversions: `%+v` of a nil
interface value. -/
def unexpectedCase : String := "unexpected case <nil>"

mutual

/-- `SignatureDataToProto`. -/
def signatureDataToProto : SignatureData → Result SignatureDescriptorData
  | .single signMode signature => pure (.single signMode signature)
  | .multi bitArray signatures => do
      let descDatas ← signaturesToProto signatures
      pure (.multi bitArray descDatas)
  | .nil => panicWith unexpectedCase

/-- The loop of `SignatureDataToProto` over the nested signatures. -/
def signaturesToProto : List SignatureData → Result (List SignatureDescriptorData)
  | [] => pure []
  | d :: rest => do
      let descData ← signatureDataToProto d
      let descDatas ← signaturesToProto rest
      pure (descData :: descDatas)

end

mutual

/-- `SignatureDataFromProto`. -/
def signatureDataFromProto : SignatureDescriptorData → Result SignatureData
  | .single mode signature => pure (.single mode signature)
  | .multi bitarray signatures => do
      let datas ← signaturesFromProto signatures
      pure (.multi bitarray datas)
  | .empty => panicWith unexpectedCase
  | .nil => panicWith nilDereference

/-- The loop of `SignatureDataFromProto` over the nested descriptors. -/
def signaturesFromProto : List SignatureDescriptorData → Result (List SignatureData)
  | [] => pure []
  | d :: rest => do
      let data ← signatureDataFromProto d
      let datas ← signaturesFromProto rest
      pure (data :: datas)

end

namespace SignatureData

/-- The nested signatures of a multisignature all convert and convert back. -/
theorem signaturesFromProto_signaturesToProto (signatures : List SignatureData)
    (children : ∀ child ∈ signatures,
      (signatureDataToProto child >>= signatureDataFromProto) = .ok child) :
    (signaturesToProto signatures >>= signaturesFromProto) = .ok signatures := by
  induction signatures with
  | nil => rfl
  | cons head tail induction =>
      obtain ⟨descData, converted, back⟩ := bind_eq_ok.mp (children head List.mem_cons_self)
      obtain ⟨descDatas, restConverted, restBack⟩ := bind_eq_ok.mp
        (induction fun child member => children child (List.mem_cons_of_mem head member))
      simp only [signaturesToProto, converted, restConverted, ok_bind, pure_eq_ok, signaturesFromProto,
        back, restBack]

/-- `SignatureDataFromProto` reads back what `SignatureDataToProto` writes, for
every tree without a nil interface value. -/
theorem signatureDataFromProto_toProto {data : SignatureData} (noNil : NoNil data) :
    (signatureDataToProto data >>= signatureDataFromProto) = .ok data := by
  induction noNil with
  | single signMode signature => rfl
  | multi bitArray signatures _ induction =>
      obtain ⟨descDatas, converted, back⟩ := bind_eq_ok.mp (signaturesFromProto_signaturesToProto
        signatures induction)
      simp only [signatureDataToProto, converted, ok_bind, pure_eq_ok, signatureDataFromProto, back]

end SignatureData

end CoreSdk.Tx
