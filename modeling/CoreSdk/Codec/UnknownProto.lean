import CoreSdk.Go.Protowire
import CoreSdk.Go.Runtime

/-!
# Rejecting unknown protobuf fields

`RejectUnknownFields` (`common/codec/unknownproto/unknown_fields.go`) walks the
encoding of a message field by field. It checks each tag against the message's
field table and recurses into nested messages, through `google.protobuf.Any` by
its type URL. It reports whether it met an unknown non-critical field. It
decodes nothing.

The walk slices its input with the lengths that the `protowire` readers
return. It checks the tag length, but not the length of a field value, which
is negative when the value is truncated: `bz[:n]` then panics
(`rejectUnknownFields_panics_on_truncated_value`). Nor does it check the type
URL of an `Any` before it drops the URL's leading slash, and an empty URL
panics too (`rejectUnknownFields_panics_on_empty_type_url`). Every recursive
call is on a shorter slice, and this is the termination argument of the
definition. It rests on two assumptions: a tag read takes at least one byte,
and the value of a decoded `Any` is no longer than its encoding.

The readers, the field tables of the registered message types, the decoding of
an `Any` and the lookup of a type by name are parameters; `txRegistry` is one
of them, with the tables of the transaction messages.
-/

namespace CoreSdk.Codec

open Go Protowire

set_option autoImplicit false

/-- Go's `[]byte` and the bytes of a Go `string`. -/
abbrev Bytes := List UInt8

/-- `descriptor.FieldDescriptorProto_Type`. -/
inductive FieldType where
  | double | float | int64 | uint64 | int32 | fixed64 | fixed32 | bool | string | group | message
  | bytes | uint32 | enum | sfixed32 | sfixed64 | sint32 | sint64
  deriving DecidableEq, Repr

namespace FieldType

/-- The `String` of the enumeration, which `%v` prints. -/
def name : FieldType → String
  | double => "TYPE_DOUBLE" | float => "TYPE_FLOAT" | int64 => "TYPE_INT64" | uint64 => "TYPE_UINT64"
  | int32 => "TYPE_INT32" | fixed64 => "TYPE_FIXED64" | fixed32 => "TYPE_FIXED32" | bool => "TYPE_BOOL"
  | string => "TYPE_STRING" | group => "TYPE_GROUP" | message => "TYPE_MESSAGE" | bytes => "TYPE_BYTES"
  | uint32 => "TYPE_UINT32" | enum => "TYPE_ENUM" | sfixed32 => "TYPE_SFIXED32"
  | sfixed64 => "TYPE_SFIXED64" | sint32 => "TYPE_SINT32" | sint64 => "TYPE_SINT64"

/-- `FieldDescriptorProto.IsScalar`: everything but strings, bytes, groups and
messages. -/
def isScalar : FieldType → Bool
  | string | bytes | group | message => false
  | _ => true

/-- `FieldDescriptorProto.WireType`. -/
def wireType : FieldType → Nat
  | double | fixed64 | sfixed64 => 1
  | float | fixed32 | sfixed32 => 5
  | string | group | message | bytes => 2
  | _ => 0

end FieldType

/-- A `FieldDescriptorProto`: its type and type name. -/
structure FieldDescriptor where
  type : FieldType
  typeName : Bytes

/-- `canEncodeType`, the table `checks`: the field types each wire type can carry. -/
def canEncodeType (wireType : Nat) (descType : FieldType) : Bool :=
  match wireType with
  -- varint: the integer types, bool and enum
  | 0 => descType ∈ [.int32, .int64, .uint32, .uint64, .sint32, .sint64, .bool, .enum]
  | 1 => descType ∈ [.fixed64, .sfixed64, .double]
  -- length-delimited: strings, bytes, messages and packed repeated scalars
  | 2 => descType ∈ [.string, .bytes, .message, .int32, .int64, .uint32, .uint64, .sint32, .sint64,
      .bool, .enum, .fixed64, .sfixed64, .double]
  | 3 => descType = .group
  | 4 => descType = .group
  | 5 => descType ∈ [.fixed32, .sfixed32, .float]
  | _ => false

/-- `wireTypeToString`. -/
def wireTypeToString (wt : Nat) : String :=
  match wt with
  | 0 => "varint" | 1 => "fixed64" | 2 => "bytes" | 3 => "start_group" | 4 => "end_group"
  | 5 => "fixed32"
  | _ => "unknown type: " ++ toString wt

/-- `%q` of text with no quote, backslash or control character in it. -/
def quote (s : String) : String := "\"" ++ s ++ "\""

/-- `errMismatchedWireType.Error`. -/
def errMismatchedWireType (type : String) (tagNum : Int) (gotWireType wantWireType : Nat) : String :=
  "Mismatched " ++ quote type ++ ": \x7bTagNum: " ++ toString tagNum ++ ", GotWireType: " ++
    quote (wireTypeToString gotWireType) ++ " != WantWireType: " ++ quote (wireTypeToString wantWireType) ++
    "\x7d"

/-- `errUnknownField.Error`. -/
def errUnknownField (type : String) (tagNum : Int) (wireType : Nat) : String :=
  "errUnknownField " ++ quote type ++ ": \x7bTagNum: " ++ toString tagNum ++ ", WireType:" ++
    quote (wireTypeToString wireType) ++ "\x7d"

/-- The type name of `google.protobuf.Any` as a field descriptor writes it. -/
def anyTypeName : Bytes := ".google.protobuf.Any".toUTF8.toList

/-- The registered message types, over a type `Msg` that stands for them. -/
structure Registry (Msg : Type) where
  /-- The field table of a message (`getDescriptorInfo`), or the error of a
  message without one. -/
  descriptorInfo : Msg → Result (Int → Option FieldDescriptor)
  /-- `reflect.ValueOf(msg).Type().String()`. -/
  typeString : Msg → String
  /-- `(*types.Any)(nil)`. -/
  anyMsg : Msg
  /-- `protoMessageForTypeName`. -/
  protoMessageForTypeName : Bytes → Result Msg
  /-- `proto.Unmarshal` into a `types.Any`: its `TypeUrl` and its `Value`. -/
  unmarshalAny : Bytes → Result (Bytes × Bytes)
  /-- The value of an `Any` is read out of its encoding. -/
  value_le : ∀ bz typeUrl value, unmarshalAny bz = .ok (typeUrl, value) → value.length ≤ bz.length

section Reject

variable {Msg : Type} (wire : Readers) (registry : Registry Msg)

/-- The `switch` on the field table: a known field whose wire type fits, or an
unknown non-critical field when those are allowed. An unknown field sets the
flag when it is non-critical, bit 11 of its number set. -/
def checkTag (table : Int → Option FieldDescriptor) (msg : Msg) (allow : Bool) (tagNum : Int)
    (wireType : Nat) (flag : Bool) : Bool × Result (Option FieldDescriptor) :=
  match table tagNum with
  | some fieldDesc =>
      if !canEncodeType wireType fieldDesc.type then
        (flag, fail (errMismatchedWireType (registry.typeString msg) tagNum wireType fieldDesc.type.wireType))
      else (flag, .ok (some fieldDesc))
  | none =>
      let isCriticalField := !tagNum.toNat.testBit 10
      let flag := flag || !isCriticalField
      if isCriticalField || !allow then (flag, fail (errUnknownField (registry.typeString msg) tagNum wireType))
      else (flag, .ok none)

theorem checkTag_of_known {table : Int → Option FieldDescriptor} (msg : Msg) (allow : Bool) {tagNum : Int}
    {wireType : Nat} (flag : Bool) {fieldDesc : FieldDescriptor} (known : table tagNum = some fieldDesc)
    (encodable : canEncodeType wireType fieldDesc.type = true) :
    checkTag registry table msg allow tagNum wireType flag = (flag, .ok (some fieldDesc)) := by
  rw [checkTag, known]
  simp [encodable]

/-- The name and the bytes of the message a field nests: through an `Any`, first
checked as an `Any` and then decoded for its type URL and value. -/
def nestedTarget (fieldDesc : FieldDescriptor) (nested : Bytes) (anyChecked : Result Unit) :
    Result (Bytes × Bytes) :=
  if fieldDesc.typeName = anyTypeName then do
    anyChecked
    registry.unmarshalAny nested
  else .ok (fieldDesc.typeName, nested)

theorem nestedTarget_length_le {fieldDesc : FieldDescriptor} {nested : Bytes} {anyChecked : Result Unit}
    {name bytes : Bytes} (target : nestedTarget registry fieldDesc nested anyChecked = .ok (name, bytes)) :
    bytes.length ≤ nested.length := by
  unfold nestedTarget at target
  split_ifs at target
  · obtain ⟨⟨⟩, -, decoded⟩ := bind_eq_ok.mp target
    exact registry.value_le _ _ _ decoded
  · rw [Except.ok.injEq, Prod.mk.injEq] at target
    obtain ⟨-, rfl⟩ := target
    exact Nat.le_refl _

mutual

/-- `RejectUnknownFields`: the flag of unknown non-critical fields met, and `nil`,
an error or a panic. -/
def rejectUnknownFields (bz : Bytes) (msg : Msg) (allow : Bool) : Bool × Result Unit :=
  if bz.length = 0 then (false, .ok ())
  else
    match registry.descriptorInfo msg with
    | .error fault => (false, .error fault)
    | .ok table => rejectLoop table msg allow bz false
termination_by (bz.length, 1)

/-- The loop `for len(bz) > 0` of `RejectUnknownFields`, with the flag so far. -/
def rejectLoop (table : Int → Option FieldDescriptor) (msg : Msg) (allow : Bool) (bz : Bytes)
    (flag : Bool) : Bool × Result Unit :=
  if bz.length = 0 then (flag, .ok ())
  else if tagRead : (wire.consumeTag bz).2.2 < 0 then (flag, fail "invalid length")
  else
    have tagged := wire.consumeTag_pos bz (by omega)
    let tagNum := (wire.consumeTag bz).1
    let wireType := (wire.consumeTag bz).2.1
    match checkTag registry table msg allow tagNum wireType flag with
    | (flag, .error fault) => (flag, .error fault)
    | (flag, .ok fieldDesc) =>
      -- skip over the tag, then cut the value with the length the reader returns
      match skipped : sliceFrom bz (wire.consumeTag bz).2.2 with
      | .error fault => (flag, .error fault)
      | .ok value =>
        let n := wire.consumeFieldValue tagNum wireType value
        match cut : slice value 0 n with
        | .error fault => (flag, .error fault)
        | .ok fieldBytes =>
          match after : sliceFrom value n with
          | .error fault => (flag, .error fault)
          | .ok rest =>
            match fieldDesc with
            | none => rejectLoop table msg allow rest flag
            | some fieldDesc =>
              if fieldDesc.type.isScalar then rejectLoop table msg allow rest flag
              else if fieldDesc.typeName = [] then
                if fieldDesc.type = .string ∨ fieldDesc.type = .bytes then rejectLoop table msg allow rest flag
                else (flag, fail ("failed to get typename for message of type " ++ fieldDesc.type.name ++
                  ", can only be TYPE_STRING or TYPE_BYTES"))
              else
                -- consume the length prefix of the nested message
                match unprefixed : sliceFrom fieldBytes (wire.consumeVarint fieldBytes).2 with
                | .error fault => (flag, .error fault)
                | .ok nested =>
                  let anyCheck := if fieldDesc.typeName = anyTypeName then
                      rejectUnknownFields nested registry.anyMsg allow
                    else (false, .ok ())
                  let flag := flag || anyCheck.1
                  match target : nestedTarget registry fieldDesc nested anyCheck.2 with
                  | .error fault => (flag, .error fault)
                  | .ok (name, bytes) =>
                    match sliceFrom name 1 with
                    | .error fault => (flag, .error fault)
                    | .ok typeName =>
                      match registry.protoMessageForTypeName typeName with
                      | .error fault => (flag, .error fault)
                      | .ok child =>
                        let childCheck := rejectUnknownFields bytes child allow
                        let flag := flag || childCheck.1
                        match childCheck.2 with
                        | .error fault => (flag, .error fault)
                        | .ok () => rejectLoop table msg allow rest flag
termination_by (bz.length, 0)
decreasing_by
  all_goals
    obtain ⟨rfl, -, -⟩ := sliceFrom_eq_ok skipped
  all_goals first
    | (obtain ⟨rfl, -, -⟩ := sliceFrom_eq_ok after
       simp only [List.length_drop]
       exact Prod.Lex.left _ _ (by omega))
    | (obtain ⟨rfl, -, -⟩ := sliceFrom_eq_ok unprefixed
       have cutShort := congrArg List.length (slice_eq_ok cut)
       simp only [List.length_take, List.length_drop] at cutShort
       first
         | (have short := nestedTarget_length_le registry target
            simp only [List.length_drop] at short
            exact Prod.Lex.left _ _ (by omega))
         | (simp only [List.length_drop]
            exact Prod.Lex.left _ _ (by omega)))

end

/-- `RejectUnknownFieldsStrict`: unknown fields rejected, non-critical ones too. -/
def rejectUnknownFieldsStrict (bz : Bytes) (msg : Msg) : Result Unit :=
  (rejectUnknownFields wire registry bz msg false).2

theorem nestedTarget_any {fieldDesc : FieldDescriptor} (isAny : fieldDesc.typeName = anyTypeName)
    (nested : Bytes) {anyChecked : Result Unit} (checked : anyChecked = .ok ()) :
    nestedTarget registry fieldDesc nested anyChecked = registry.unmarshalAny nested := by
  rw [nestedTarget, if_pos isAny, checked]
  rfl

theorem anyTypeName_ne_nil : anyTypeName ≠ [] := by
  decide +kernel

/-- A tag read off the front of the bytes: they are not empty, and skipping
the tag leaves what follows it. -/
theorem length_ne_zero_of_tagged {tagBytes rest : Bytes} {num : Int} {typ : Nat}
    (tagged : wire.consumeTag (tagBytes ++ rest) = (num, typ, (tagBytes.length : Int))) :
    (tagBytes ++ rest).length ≠ 0 := by
  have read := wire.consumeTag_pos (tagBytes ++ rest) (by rw [tagged]; simp)
  rw [tagged] at read
  rw [List.length_append]
  simp only at read
  omega

theorem sliceFrom_tagged {tagBytes rest : Bytes} {num : Int} {typ : Nat}
    (tagged : wire.consumeTag (tagBytes ++ rest) = (num, typ, (tagBytes.length : Int))) :
    sliceFrom (tagBytes ++ rest) (wire.consumeTag (tagBytes ++ rest)).2.2 = .ok rest := by
  rw [tagged]
  exact sliceFrom_append tagBytes rest

/-- The turn of the loop at a known field once its tag is skipped and its value
`fieldBytes` cut off, `rest` being what follows: the steps of `rejectLoop`
from there, with matches that do not name their discriminants, which only the
termination argument reads. -/
def knownFieldTurn (table : Int → Option FieldDescriptor) (msg : Msg) (allow : Bool)
    (fieldDesc : FieldDescriptor) (fieldBytes rest : Bytes) (flag : Bool) : Bool × Result Unit :=
  if fieldDesc.type.isScalar then rejectLoop wire registry table msg allow rest flag
  else if fieldDesc.typeName = [] then
    if fieldDesc.type = .string ∨ fieldDesc.type = .bytes then rejectLoop wire registry table msg allow rest flag
    else (flag, fail ("failed to get typename for message of type " ++ fieldDesc.type.name ++
      ", can only be TYPE_STRING or TYPE_BYTES"))
  else
    match sliceFrom fieldBytes (wire.consumeVarint fieldBytes).2 with
    | .error fault => (flag, .error fault)
    | .ok nested =>
      let anyCheck := if fieldDesc.typeName = anyTypeName then
          rejectUnknownFields wire registry nested registry.anyMsg allow
        else (false, .ok ())
      let flag := flag || anyCheck.1
      match nestedTarget registry fieldDesc nested anyCheck.2 with
      | .error fault => (flag, .error fault)
      | .ok (name, bytes) =>
        match sliceFrom name 1 with
        | .error fault => (flag, .error fault)
        | .ok typeName =>
          match registry.protoMessageForTypeName typeName with
          | .error fault => (flag, .error fault)
          | .ok child =>
            let childCheck := rejectUnknownFields wire registry bytes child allow
            let flag := flag || childCheck.1
            match childCheck.2 with
            | .error fault => (flag, .error fault)
            | .ok () => rejectLoop wire registry table msg allow rest flag

/-- A turn at a known field whose tag and value are read off the front goes on
as `knownFieldTurn` with the value and what follows it. -/
theorem rejectLoop_of_known (table : Int → Option FieldDescriptor) (msg : Msg) (allow flag : Bool)
    (tagBytes value rest : Bytes) (num : Int) (typ : Nat) (fieldDesc : FieldDescriptor)
    (tagged : wire.consumeTag (tagBytes ++ (value ++ rest)) = (num, typ, (tagBytes.length : Int)))
    (known : table num = some fieldDesc) (encodable : canEncodeType typ fieldDesc.type = true)
    (measured : wire.consumeFieldValue num typ (value ++ rest) = (value.length : Int)) :
    rejectLoop wire registry table msg allow (tagBytes ++ (value ++ rest)) flag =
      knownFieldTurn wire registry table msg allow fieldDesc value rest flag := by
  rw [rejectLoop, if_neg (length_ne_zero_of_tagged wire tagged)]
  simp only [tagged]
  rw [dif_neg (by omega), checkTag_of_known registry msg allow flag known encodable]
  dsimp only
  split
  · next fault skipped =>
      rw [sliceFrom_tagged wire tagged] at skipped
      cases skipped
  · next remaining skipped =>
      rw [sliceFrom_tagged wire tagged, Except.ok.injEq] at skipped
      subst skipped
      split
      · next fault cut =>
          rw [tagged, measured, slice_append] at cut
          cases cut
      · next fieldBytes cut =>
          rw [tagged, measured, slice_append, Except.ok.injEq] at cut
          subst cut
          split
          · next fault after =>
              rw [tagged, measured, sliceFrom_append] at after
              cases after
          · next following after =>
              rw [tagged, measured, sliceFrom_append, Except.ok.injEq] at after
              subst after
              -- the rest of the turn: the same branches on both sides, the named matches split
              rw [knownFieldTurn]
              by_cases scalar : fieldDesc.type.isScalar = true
              · rw [if_pos scalar, if_pos scalar]
              by_cases untyped : fieldDesc.typeName = []
              · rw [if_neg scalar, if_pos untyped, if_neg scalar, if_pos untyped]
              rw [if_neg scalar, if_neg untyped, if_neg scalar, if_neg untyped]
              split
              · next fault unprefixed => rw [unprefixed]
              · next nested unprefixed =>
                  rw [unprefixed]
                  dsimp only
                  split
                  · next fault target => rw [target]
                  · next name bytes target => rw [target]

theorem rejectUnknownFields_of_described {bz : Bytes} (nonempty : bz.length ≠ 0) {msg : Msg}
    {table : Int → Option FieldDescriptor} (described : registry.descriptorInfo msg = .ok table) (allow : Bool) :
    rejectUnknownFields wire registry bz msg allow = rejectLoop wire registry table msg allow bz false := by
  rw [rejectUnknownFields, if_neg nonempty, described]

theorem rejectLoop_nil (table : Int → Option FieldDescriptor) (msg : Msg) (allow flag : Bool) :
    rejectLoop wire registry table msg allow [] flag = (flag, .ok ()) := by
  rw [rejectLoop, if_pos List.length_nil]

/-- One turn of the loop over a known field that it does not walk into: a
scalar, or a string or bytes field without a type name. -/
theorem rejectLoop_of_skipped (table : Int → Option FieldDescriptor) (msg : Msg) (allow flag : Bool)
    (tagBytes value rest : Bytes) (num : Int) (typ : Nat) (fieldDesc : FieldDescriptor)
    (tagged : wire.consumeTag (tagBytes ++ (value ++ rest)) = (num, typ, (tagBytes.length : Int)))
    (known : table num = some fieldDesc) (encodable : canEncodeType typ fieldDesc.type = true)
    (skipped : fieldDesc.type.isScalar = true ∨
      fieldDesc.typeName = [] ∧ (fieldDesc.type = .string ∨ fieldDesc.type = .bytes))
    (measured : wire.consumeFieldValue num typ (value ++ rest) = (value.length : Int)) :
    rejectLoop wire registry table msg allow (tagBytes ++ (value ++ rest)) flag =
      rejectLoop wire registry table msg allow rest flag := by
  rw [rejectLoop_of_known wire registry table msg allow flag tagBytes value rest num typ fieldDesc tagged known
    encodable measured, knownFieldTurn]
  rcases skipped with scalar | ⟨untyped, stringOrBytes⟩
  · rw [if_pos scalar]
  · by_cases scalar : fieldDesc.type.isScalar = true
    · rw [if_pos scalar]
    · rw [if_neg scalar, if_pos untyped, if_pos stringOrBytes]

/-- One turn of the loop over a known field that nests a message other than an
`Any`: the nested bytes, after their length, are checked as the message its type
name resolves to, and the loop goes on after them with the flag of both. -/
theorem rejectLoop_of_message (table : Int → Option FieldDescriptor) (msg : Msg) (allow flag : Bool)
    (tagBytes lengthBytes nested rest : Bytes) (num : Int) (typ : Nat) (fieldDesc : FieldDescriptor)
    (dot : UInt8) (name : Bytes) (child : Msg)
    (tagged : wire.consumeTag (tagBytes ++ (lengthBytes ++ nested ++ rest)) = (num, typ, (tagBytes.length : Int)))
    (known : table num = some fieldDesc) (encodable : canEncodeType typ fieldDesc.type = true)
    (notScalar : fieldDesc.type.isScalar = false) (typed : fieldDesc.typeName = dot :: name)
    (notAny : fieldDesc.typeName ≠ anyTypeName)
    (measured : wire.consumeFieldValue num typ (lengthBytes ++ nested ++ rest) = ((lengthBytes ++ nested).length : Int))
    (prefixed : (wire.consumeVarint (lengthBytes ++ nested)).2 = (lengthBytes.length : Int))
    (resolved : registry.protoMessageForTypeName name = .ok child) :
    rejectLoop wire registry table msg allow (tagBytes ++ (lengthBytes ++ nested ++ rest)) flag =
      match rejectUnknownFields wire registry nested child allow with
      | (childFlag, .error fault) => (flag || childFlag, .error fault)
      | (childFlag, .ok ()) => rejectLoop wire registry table msg allow rest (flag || childFlag) := by
  have unprefixed : sliceFrom (lengthBytes ++ nested) (wire.consumeVarint (lengthBytes ++ nested)).2 = .ok nested := by
    rw [prefixed, sliceFrom_append]
  rw [rejectLoop_of_known wire registry table msg allow flag tagBytes (lengthBytes ++ nested) rest num typ fieldDesc
    tagged known encodable measured, knownFieldTurn, notScalar, if_neg Bool.false_ne_true,
    if_neg (by rw [typed]; exact List.cons_ne_nil dot name), unprefixed]
  dsimp only
  -- not an `Any`: the nested bytes are checked as the message the type name resolves to
  rw [if_neg notAny, nestedTarget, if_neg notAny, typed]
  simp only [sliceFrom_cons_one, resolved, Bool.or_false]
  rcases rejectUnknownFields wire registry nested child allow with ⟨childFlag, fault | ⟨⟩⟩ <;> rfl

/-- The loop at a known field whose value is cut short. -/
theorem rejectLoop_panics_on_truncated_value (table : Int → Option FieldDescriptor) (msg : Msg)
    (allow flag : Bool) (tagBytes rest : Bytes) (num : Int) (typ : Nat) (fieldDesc : FieldDescriptor)
    (tagged : wire.consumeTag (tagBytes ++ rest) = (num, typ, (tagBytes.length : Int)))
    (known : table num = some fieldDesc) (encodable : canEncodeType typ fieldDesc.type = true)
    (truncated : wire.consumeFieldValue num typ rest < 0) :
    rejectLoop wire registry table msg allow (tagBytes ++ rest) flag =
      (flag, panicWith ("runtime error: slice bounds out of range [:" ++
        toString (wire.consumeFieldValue num typ rest) ++ "]")) := by
  rw [rejectLoop, if_neg (length_ne_zero_of_tagged wire tagged)]
  simp only [tagged]
  rw [dif_neg (by omega), checkTag_of_known registry msg allow flag known encodable]
  dsimp only
  -- the matches name their discriminants, so they are split rather than rewritten
  split
  · next fault skipped =>
      rw [sliceFrom_tagged wire tagged] at skipped
      cases skipped
  · next value skipped =>
      rw [sliceFrom_tagged wire tagged, Except.ok.injEq] at skipped
      subst skipped
      split
      · next fault cut =>
          -- the panic of the slice, at its own type, is the panic returned
          rw [tagged, slice_of_neg _ _ _ truncated, panicWith, Except.error.injEq] at cut
          rw [← cut]
          rfl
      · next fieldBytes cut =>
          rw [tagged, slice_of_neg _ _ _ truncated] at cut
          exact absurd cut (panicWith_ne_ok _ _)

/-- A first field that is known and of a fitting wire type, but whose value is
cut short: `ConsumeFieldValue` returns a negative length, and slicing the value
with it panics, whatever the message and the flag. -/
theorem rejectUnknownFields_panics_on_truncated_value (msg : Msg) (allow : Bool)
    (table : Int → Option FieldDescriptor) (described : registry.descriptorInfo msg = .ok table)
    (tagBytes rest : Bytes) (num : Int) (typ : Nat) (fieldDesc : FieldDescriptor)
    (tagged : wire.consumeTag (tagBytes ++ rest) = (num, typ, (tagBytes.length : Int)))
    (known : table num = some fieldDesc) (encodable : canEncodeType typ fieldDesc.type = true)
    (truncated : wire.consumeFieldValue num typ rest < 0) :
    rejectUnknownFields wire registry (tagBytes ++ rest) msg allow =
      (false, panicWith ("runtime error: slice bounds out of range [:" ++
        toString (wire.consumeFieldValue num typ rest) ++ "]")) := by
  rw [rejectUnknownFields_of_described wire registry (length_ne_zero_of_tagged wire tagged) described]
  exact rejectLoop_panics_on_truncated_value wire registry table msg allow false tagBytes rest num typ fieldDesc
    tagged known encodable truncated

/-- A known field that nests an `Any` whose encoding is accepted as an `Any`
but decodes to an empty type URL: the loop slices the URL from its second byte,
which panics. -/
theorem rejectUnknownFields_panics_on_empty_type_url (msg : Msg) (allow : Bool)
    (table : Int → Option FieldDescriptor) (described : registry.descriptorInfo msg = .ok table)
    (tagBytes lengthBytes nested rest anyValue : Bytes) (num : Int) (typ : Nat) (fieldDesc : FieldDescriptor)
    (tagged : wire.consumeTag (tagBytes ++ (lengthBytes ++ nested ++ rest)) = (num, typ, (tagBytes.length : Int)))
    (known : table num = some fieldDesc) (encodable : canEncodeType typ fieldDesc.type = true)
    (notScalar : fieldDesc.type.isScalar = false) (isAny : fieldDesc.typeName = anyTypeName)
    (measured : wire.consumeFieldValue num typ (lengthBytes ++ nested ++ rest) = ((lengthBytes ++ nested).length : Int))
    (prefixed : (wire.consumeVarint (lengthBytes ++ nested)).2 = (lengthBytes.length : Int))
    (anyChecked : (rejectUnknownFields wire registry nested registry.anyMsg allow).2 = .ok ())
    (emptyUrl : registry.unmarshalAny nested = .ok ([], anyValue)) :
    (rejectUnknownFields wire registry (tagBytes ++ (lengthBytes ++ nested ++ rest)) msg allow).2 =
      panicWith "runtime error: slice bounds out of range [1:0]" := by
  have unprefixed : sliceFrom (lengthBytes ++ nested) (wire.consumeVarint (lengthBytes ++ nested)).2 = .ok nested := by
    rw [prefixed, sliceFrom_append]
  rw [rejectUnknownFields_of_described wire registry (length_ne_zero_of_tagged wire tagged) described,
    rejectLoop_of_known wire registry table msg allow false tagBytes (lengthBytes ++ nested) rest num typ fieldDesc
      tagged known encodable measured, knownFieldTurn, notScalar, if_neg Bool.false_ne_true, isAny,
    if_neg anyTypeName_ne_nil, unprefixed]
  dsimp only
  -- the `Any` passed its own check and decodes to the empty URL, sliced from its second byte
  rw [if_pos rfl, nestedTarget_any registry isAny nested anyChecked, emptyUrl]
  rfl

/-- One turn of the loop over a field its message does not declare, critical or
not allowed: the error names the message, the field number and the wire type. -/
theorem rejectLoop_of_unknown (table : Int → Option FieldDescriptor) (msg : Msg) (allow flag : Bool)
    (tagBytes rest : Bytes) (num : Int) (typ : Nat)
    (tagged : wire.consumeTag (tagBytes ++ rest) = (num, typ, (tagBytes.length : Int)))
    (unknown : table num = none) (reported : (!num.toNat.testBit 10 || !allow) = true) :
    rejectLoop wire registry table msg allow (tagBytes ++ rest) flag =
      (flag || num.toNat.testBit 10, fail (errUnknownField (registry.typeString msg) num typ)) := by
  rw [rejectLoop, if_neg (length_ne_zero_of_tagged wire tagged)]
  simp only [tagged]
  rw [dif_neg (by omega)]
  simp only [checkTag, unknown, Bool.not_not, reported, if_true]
  rfl

/-- One turn of the loop over a known field that nests an `Any`: the nested bytes
are checked as an `Any`, then decoded, and the value is checked as the message its
type URL names, after the URL's slash; the loop goes on after the field with the
flags of both checks. -/
theorem rejectLoop_of_any (table : Int → Option FieldDescriptor) (msg : Msg) (allow flag : Bool)
    (tagBytes lengthBytes nested rest : Bytes) (num : Int) (typ : Nat) (fieldDesc : FieldDescriptor)
    (anyFlag : Bool) (slash : UInt8) (name value : Bytes) (child : Msg)
    (tagged : wire.consumeTag (tagBytes ++ (lengthBytes ++ nested ++ rest)) = (num, typ, (tagBytes.length : Int)))
    (known : table num = some fieldDesc) (encodable : canEncodeType typ fieldDesc.type = true)
    (notScalar : fieldDesc.type.isScalar = false) (isAny : fieldDesc.typeName = anyTypeName)
    (measured : wire.consumeFieldValue num typ (lengthBytes ++ nested ++ rest) = ((lengthBytes ++ nested).length : Int))
    (prefixed : (wire.consumeVarint (lengthBytes ++ nested)).2 = (lengthBytes.length : Int))
    (anyChecked : rejectUnknownFields wire registry nested registry.anyMsg allow = (anyFlag, .ok ()))
    (decoded : registry.unmarshalAny nested = .ok (slash :: name, value))
    (resolved : registry.protoMessageForTypeName name = .ok child) :
    rejectLoop wire registry table msg allow (tagBytes ++ (lengthBytes ++ nested ++ rest)) flag =
      match rejectUnknownFields wire registry value child allow with
      | (childFlag, .error fault) => (flag || anyFlag || childFlag, .error fault)
      | (childFlag, .ok ()) => rejectLoop wire registry table msg allow rest (flag || anyFlag || childFlag) := by
  have unprefixed : sliceFrom (lengthBytes ++ nested) (wire.consumeVarint (lengthBytes ++ nested)).2 = .ok nested := by
    rw [prefixed, sliceFrom_append]
  -- the `Any` passed its own check, so the decoded URL and value are used
  have checked : (rejectUnknownFields wire registry nested registry.anyMsg allow).2 = .ok () := by
    rw [anyChecked]
  rw [rejectLoop_of_known wire registry table msg allow flag tagBytes (lengthBytes ++ nested) rest num typ fieldDesc
    tagged known encodable measured, knownFieldTurn, notScalar, if_neg Bool.false_ne_true, isAny,
    if_neg anyTypeName_ne_nil, unprefixed]
  dsimp only
  rw [if_pos rfl, nestedTarget_any registry isAny nested checked, decoded]
  simp only [anyChecked, sliceFrom_cons_one, resolved]
  rcases rejectUnknownFields wire registry value child allow with ⟨childFlag, fault | ⟨⟩⟩ <;> rfl

end Reject

/-! ## An `Any` inside an `Any`

The walk checks an `Any` field twice: the `Any` itself, and then its value as the
type its URL names. When that type is `google.protobuf.Any`, the value is an
`Any` too, and it is checked as one: its type URL as a string and its value as
bytes, which the walk skips. The value of the inner `Any` is never read, and
whatever fields it holds are accepted (`rejectUnknownFields_skips_any_in_any`). -/

/-- A length-delimited field of a one-byte tag, with a one-byte length before
the bytes: the encoding of a field shorter than `0x80` bytes. -/
def lengthDelimited (tag : UInt8) (value : Bytes) : Bytes := tag :: UInt8.ofNat value.length :: value

/-- A `google.protobuf.Any` of a short type URL and value: the two fields in order. -/
def anyEncoding (typeUrl value : Bytes) : Bytes := lengthDelimited 0x0A typeUrl ++ lengthDelimited 0x12 value

/-- The type URL `/google.protobuf.Any`: a slash, then the type name. -/
def anyTypeUrl : Bytes := 0x2F :: anyTypeName.tail

theorem length_anyEncoding (typeUrl value : Bytes) :
    (anyEncoding typeUrl value).length = typeUrl.length + value.length + 4 := by
  simp only [anyEncoding, lengthDelimited, List.length_append, List.length_cons]
  omega

/-- The tag and length of a short length-delimited field, as the loop lemmas take them. -/
theorem lengthDelimited_split (tag : UInt8) (value rest : Bytes) :
    lengthDelimited tag value ++ rest = [tag] ++ ([UInt8.ofNat value.length] ++ value ++ rest) := rfl

/-- The length byte of a short field reads back as the length. -/
theorem toNat_length_byte {value : Bytes} (short : value.length < 0x80) :
    (UInt8.ofNat value.length).toNat = value.length :=
  UInt8.toNat_ofNat_of_lt' (by change value.length < 256; omega)

theorem consumeFieldValue_lengthDelimited {wire : Readers} (reads : wire.ShortFields) (num : Int)
    (value rest : Bytes) (short : value.length < 0x80) :
    wire.consumeFieldValue num bytesType ([UInt8.ofNat value.length] ++ value ++ rest) =
      (([UInt8.ofNat value.length] ++ value).length : Int) :=
  reads.bytes num _ value rest (by rw [toNat_length_byte short]; exact short) (toNat_length_byte short).symm

theorem consumeVarint_lengthDelimited {wire : Readers} (reads : wire.ShortFields) (value : Bytes)
    (short : value.length < 0x80) :
    (wire.consumeVarint ([UInt8.ofNat value.length] ++ value)).2 = ([UInt8.ofNat value.length].length : Int) :=
  reads.varint _ value (by rw [toNat_length_byte short]; exact short)

section AnyInAny

variable {Msg : Type} {wire : Readers} (registry : Registry Msg)

/-- An `Any` of a short type URL and value passes the check as an `Any`, with no
unknown field met: the walk skips its two fields, a string and bytes, whatever
the value holds. -/
theorem rejectUnknownFields_anyEncoding (reads : wire.ShortFields) {anyTable : Int → Option FieldDescriptor}
    (anyDescribed : registry.descriptorInfo registry.anyMsg = .ok anyTable)
    (typeUrlField : anyTable 1 = some ⟨.string, []⟩) (valueField : anyTable 2 = some ⟨.bytes, []⟩)
    (allow : Bool) (typeUrl value : Bytes) (shortUrl : typeUrl.length < 0x80) (shortValue : value.length < 0x80) :
    rejectUnknownFields wire registry (anyEncoding typeUrl value) registry.anyMsg allow = (false, .ok ()) := by
  have nonempty : (anyEncoding typeUrl value).length ≠ 0 := by
    rw [length_anyEncoding]
    omega
  rw [rejectUnknownFields_of_described wire registry nonempty anyDescribed, anyEncoding,
    lengthDelimited_split 0x0A,
    rejectLoop_of_skipped wire registry anyTable _ allow false [0x0A] _ _ 1 2 ⟨.string, []⟩
      (reads.tag 0x0A _ (by decide) (by decide)) typeUrlField rfl (Or.inr ⟨rfl, Or.inl rfl⟩)
      (consumeFieldValue_lengthDelimited reads 1 typeUrl _ shortUrl),
    ← List.append_nil (lengthDelimited 0x12 value), lengthDelimited_split 0x12,
    rejectLoop_of_skipped wire registry anyTable _ allow false [0x12] _ _ 2 2 ⟨.bytes, []⟩
      (reads.tag 0x12 _ (by decide) (by decide)) valueField rfl (Or.inr ⟨rfl, Or.inr rfl⟩)
      (consumeFieldValue_lengthDelimited reads 2 value _ shortValue),
    rejectLoop_nil]

/-- Field 1 of a message nests an `Any` whose URL names `google.protobuf.Any` and
whose value is an `Any` of any short type URL and value. Over any readers that
read one-byte tags and lengths as protowire does, the walk accepts it with no
unknown field met, whatever that value holds and whatever its URL names. -/
theorem rejectUnknownFields_skips_any_in_any (reads : wire.ShortFields)
    {table anyTable : Int → Option FieldDescriptor} (msg : Msg) (allow : Bool) (described : registry.descriptorInfo msg = .ok table)
    (anyField : table 1 = some ⟨.message, anyTypeName⟩)
    (anyDescribed : registry.descriptorInfo registry.anyMsg = .ok anyTable)
    (typeUrlField : anyTable 1 = some ⟨.string, []⟩) (valueField : anyTable 2 = some ⟨.bytes, []⟩)
    (resolvesAny : registry.protoMessageForTypeName anyTypeName.tail = .ok registry.anyMsg)
    (typeUrl value : Bytes) (short : (anyEncoding anyTypeUrl (anyEncoding typeUrl value)).length < 0x80)
    (decoded : registry.unmarshalAny (anyEncoding anyTypeUrl (anyEncoding typeUrl value)) =
      .ok (anyTypeUrl, anyEncoding typeUrl value)) :
    rejectUnknownFields wire registry (lengthDelimited 0x0A (anyEncoding anyTypeUrl (anyEncoding typeUrl value)))
      msg allow = (false, .ok ()) := by
  have outerLength := length_anyEncoding anyTypeUrl (anyEncoding typeUrl value)
  have innerLength := length_anyEncoding typeUrl value
  -- the outer `Any`, then its value as an `Any`, pass the check of an `Any`
  have outer := rejectUnknownFields_anyEncoding registry reads anyDescribed typeUrlField valueField allow anyTypeUrl
    (anyEncoding typeUrl value) (by omega) (by omega)
  have inner := rejectUnknownFields_anyEncoding registry reads anyDescribed typeUrlField valueField allow typeUrl value
    (by omega) (by omega)
  rw [rejectUnknownFields_of_described wire registry (by simp [lengthDelimited]) described,
    ← List.append_nil (lengthDelimited 0x0A _), lengthDelimited_split,
    rejectLoop_of_any wire registry table msg allow false [0x0A] _ _ [] 1 2 ⟨.message, anyTypeName⟩ false
      0x2F anyTypeName.tail _ registry.anyMsg (reads.tag 0x0A _ (by decide) (by decide)) anyField rfl rfl rfl
      (consumeFieldValue_lengthDelimited reads 1 _ [] short) (consumeVarint_lengthDelimited reads _ short) outer decoded
      resolvesAny,
    inner]
  exact rejectLoop_nil wire registry table msg allow false

end AnyInAny

/-! ## The transaction messages -/

/-- `TxRaw`, `TxBody`, `AuthInfo`, `Fee` and `google.protobuf.Any`. -/
inductive TxMessage where
  | txRaw | txBody | authInfo | fee | any
  deriving DecidableEq, Repr

/-- The type names of the nested messages, as a field descriptor writes them. -/
def signerInfoTypeName : Bytes := ".cosmos.tx.v1beta1.SignerInfo".toUTF8.toList
def feeTypeName : Bytes := ".cosmos.tx.v1beta1.Fee".toUTF8.toList
def coinTypeName : Bytes := ".cosmos.base.v1beta1.Coin".toUTF8.toList

/-- The field tables of `tx.pb.go` and `any.go`. -/
def TxMessage.fields : TxMessage → Int → Option FieldDescriptor
  | .txRaw, tagNum => if 1 ≤ tagNum ∧ tagNum ≤ 3 then some ⟨.bytes, []⟩ else none
  | .txBody, tagNum =>
      if tagNum = 1 ∨ tagNum = 1023 ∨ tagNum = 2047 then some ⟨.message, anyTypeName⟩
      else if tagNum = 2 then some ⟨.string, []⟩
      else if tagNum = 3 then some ⟨.uint64, []⟩
      else none
  | .authInfo, tagNum =>
      if tagNum = 1 then some ⟨.message, signerInfoTypeName⟩
      else if tagNum = 2 then some ⟨.message, feeTypeName⟩
      else none
  | .fee, tagNum =>
      if tagNum = 1 then some ⟨.message, coinTypeName⟩
      else if tagNum = 2 then some ⟨.uint64, []⟩
      else if tagNum = 3 ∨ tagNum = 4 then some ⟨.string, []⟩
      else none
  | .any, tagNum =>
      if tagNum = 1 then some ⟨.string, []⟩ else if tagNum = 2 then some ⟨.bytes, []⟩ else none

/-- A registry of the transaction messages. Of the nested types it resolves
`Fee` only, and its error leaves out the name. It decodes an `Any` only from the
empty encoding, to the empty type URL and value, as proto3 does. -/
def txRegistry : Registry TxMessage where
  descriptorInfo msg := .ok msg.fields
  typeString
    | .txRaw => "*tx.TxRaw"
    | .txBody => "*tx.TxBody"
    | .authInfo => "*tx.AuthInfo"
    | .fee => "*tx.Fee"
    | .any => "*types.Any"
  anyMsg := .any
  protoMessageForTypeName name :=
    if name = feeTypeName.tail then .ok .fee else fail "failed to retrieve the message of type"
  unmarshalAny bz := if bz = [] then .ok ([], []) else fail "unexpected EOF"
  value_le bz typeUrl value decoded := by
    split_ifs at decoded with empty
    · cases decoded
      exact Nat.zero_le _
    · exact absurd decoded (fail_ne_ok _ _)

/-- The single byte \x0a, the tag of `body_bytes` with no length after it:
`DefaultTxDecoder` hands such bytes to `RejectUnknownFieldsStrict` first. -/
theorem rejectUnknownFields_panics_on_truncated_value_bodyBytes :
    rejectUnknownFields readers txRegistry [0x0A] .txRaw false =
      (false, panicWith "runtime error: slice bounds out of range [:-1]") := by
  have truncated : readers.consumeFieldValue 1 2 [] = -1 := consumeFieldValue_bytes_nil 1
  have panics := rejectUnknownFields_panics_on_truncated_value readers txRegistry .txRaw false
    TxMessage.txRaw.fields rfl [0x0A] [] 1 2 ⟨.bytes, []⟩ (by decide) rfl (by decide)
    (by rw [truncated]; decide)
  rw [truncated] at panics
  exact panics

-- the bytes \x0a\x00: a `TxBody` whose first message is the empty `Any`
example :
    (rejectUnknownFields readers txRegistry [0x0A, 0x00] .txBody true).2 =
      panicWith "runtime error: slice bounds out of range [1:0]" := by
  have measured : readers.consumeFieldValue 1 2 [0x00] = 1 := by
    rw [show readers.consumeFieldValue 1 2 = consumeFieldValue 1 bytesType from rfl, consumeFieldValue_bytesType]
    decide
  have anyChecked : (rejectUnknownFields readers txRegistry [] txRegistry.anyMsg true).2 = .ok () := by
    rw [rejectUnknownFields, if_pos List.length_nil]
  exact rejectUnknownFields_panics_on_empty_type_url readers txRegistry .txBody true TxMessage.txBody.fields
    rfl [0x0A] [0x00] [] [] [] 1 2 ⟨.message, anyTypeName⟩ (by decide) rfl (by decide) rfl rfl measured
    (by decide) anyChecked rfl

/-- `proto.Unmarshal` into a `types.Any`, for the encodings `anyEncoding` writes:
the type URL and then the value, each behind its tag and a one-byte length. -/
def unmarshalShortAny (bz : Bytes) : Result (Bytes × Bytes) :=
  match bz with
  | urlTag :: n :: rest =>
      match rest.drop n.toNat with
      | valueTag :: m :: value =>
          if urlTag = 0x0A ∧ valueTag = 0x12 ∧ n.toNat ≤ rest.length ∧ m.toNat = value.length then
            .ok (rest.take n.toNat, value)
          else fail "unexpected EOF"
      | _ => fail "unexpected EOF"
  | _ => fail "unexpected EOF"

theorem unmarshalShortAny_value_le (bz typeUrl value : Bytes)
    (decoded : unmarshalShortAny bz = .ok (typeUrl, value)) : value.length ≤ bz.length := by
  unfold unmarshalShortAny at decoded
  split at decoded
  · next urlTag n rest =>
      split at decoded
      · next valueTag m found after =>
          split_ifs at decoded
          · obtain ⟨-, rfl⟩ := Prod.mk.inj (Except.ok.inj decoded)
            -- the value ends the bytes after the type URL
            have lengths := congrArg List.length after
            simp only [List.length_drop, List.length_cons] at lengths
            simp only [List.length_cons]
            omega
          · exact absurd decoded (fail_ne_ok _ _)
      · exact absurd decoded (fail_ne_ok _ _)
  · exact absurd decoded (fail_ne_ok _ _)

theorem unmarshalShortAny_anyEncoding (typeUrl value : Bytes) (shortUrl : typeUrl.length < 0x80)
    (shortValue : value.length < 0x80) :
    unmarshalShortAny (anyEncoding typeUrl value) = .ok (typeUrl, value) := by
  simp only [anyEncoding, lengthDelimited, List.cons_append, unmarshalShortAny, toNat_length_byte shortUrl,
    List.drop_left]
  rw [if_pos ⟨trivial, trivial, by simp, toNat_length_byte shortValue⟩, List.take_left]

/-- The type URL `/cosmos.tx.v1beta1.Fee`. -/
def feeTypeUrl : Bytes := 0x2F :: feeTypeName.tail

/-- A registry of the transaction messages that also resolves `google.protobuf.Any`
and decodes an `Any` of the encodings `anyEncoding` writes. -/
def anyRegistry : Registry TxMessage where
  descriptorInfo msg := .ok msg.fields
  typeString := txRegistry.typeString
  anyMsg := .any
  protoMessageForTypeName name :=
    if name = anyTypeName.tail then .ok .any
    else if name = feeTypeName.tail then .ok .fee
    else fail "failed to retrieve the message of type"
  unmarshalAny := unmarshalShortAny
  value_le := unmarshalShortAny_value_le

/-- A `TxBody` whose first message is an `Any` of an `Any` of a `Fee` holding
field 5, which `Fee` does not declare: the walk accepts the body, while the
same value, checked as the `Fee` its URL names, is rejected. -/
theorem rejectUnknownFields_skips_any_in_any_fee :
    rejectUnknownFields readers anyRegistry
        (lengthDelimited 0x0A (anyEncoding anyTypeUrl (anyEncoding feeTypeUrl [0x28, 0x01]))) .txBody false =
      (false, .ok ()) ∧
    anyRegistry.protoMessageForTypeName feeTypeUrl.tail = .ok .fee ∧
    rejectUnknownFields readers anyRegistry [0x28, 0x01] .fee false =
      (false, fail (errUnknownField "*tx.Fee" 5 0)) := by
  have short : (anyEncoding anyTypeUrl (anyEncoding feeTypeUrl [0x28, 0x01])).length < 0x80 := by
    rw [length_anyEncoding, length_anyEncoding]
    decide +kernel
  have lengths := length_anyEncoding anyTypeUrl (anyEncoding feeTypeUrl [0x28, 0x01])
  have resolvesFee : anyRegistry.protoMessageForTypeName feeTypeUrl.tail = .ok .fee :=
    (if_neg (by decide +kernel)).trans (if_pos rfl)
  refine ⟨rejectUnknownFields_skips_any_in_any anyRegistry readers_shortFields .txBody false rfl rfl rfl rfl rfl
    (if_pos rfl)
    feeTypeUrl [0x28, 0x01] short (unmarshalShortAny_anyEncoding _ _ (by omega) (by omega)), resolvesFee, ?_⟩
  rw [rejectUnknownFields_of_described readers anyRegistry (by decide) rfl,
    show ([0x28, 0x01] : Bytes) = [0x28] ++ [0x01] from rfl,
    rejectLoop_of_unknown readers anyRegistry _ .fee false false [0x28] [0x01] 5 0
      (consumeTag_of_lt 0x28 [0x01] (by decide) (by decide)) rfl (by decide)]
  rfl

end CoreSdk.Codec
