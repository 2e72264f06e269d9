import CoreSdk.Tx.Signing

/-!
# Mode information and raw signatures

`types/tx/sigs.go` splits a `SignatureData` tree into the `ModeInfo` tree of a
`SignerInfo` and one raw signature: a multisignature's nested signatures are
packed into a protobuf `MultiSignature` message, and their mode information is
kept, in the same order, in the `ModeInfo_Multi`. The decoder unpacks the
message and pairs the two lists again by position.

The generated protobuf code of `MultiSignature` is outside the repository: it
is a parameter, with the round trip the decoder relies on as a hypothesis.
-/

namespace CoreSdk.Tx

open CoreSdk.Crypto Go

set_option autoImplicit false

/-- `types.MultiSignature`: the signatures, and the bytes of fields its decoder
did not recognise (`XXX_unrecognized`). -/
structure MultiSignature where
  signatures : List Bytes
  unrecognized : Bytes

/-- The generated `Marshal` and `Unmarshal` of `MultiSignature`. -/
structure MultiSignatureCodec where
  marshal : MultiSignature → Except String Bytes
  unmarshal : Bytes → Except String MultiSignature

/-- What the decoder relies on: a message with no unrecognized fields marshals,
and unmarshals back to itself. -/
def MultiSignatureCodec.RoundTrips (codec : MultiSignatureCodec) : Prop :=
  ∀ signatures, ∃ bz, codec.marshal ⟨signatures, []⟩ = .ok bz ∧ codec.unmarshal bz = .ok ⟨signatures, []⟩

/-! ## A codec to run the statements on -/

/-- Each byte as `1, b`, and `0` after each signature. -/
def escapeSig : Bytes → Bytes
  | [] => [0]
  | b :: rest => 1 :: b :: escapeSig rest

/-- Reads the signatures `escapeSig` writes; `current` is the signature read so far. -/
def unescape : Bytes → Bytes → List Bytes
  | [], _ => []
  | tag :: rest, current =>
      if tag = 0 then current :: unescape rest []
      else match rest with
        | b :: rest => unescape rest (current ++ [b])
        | [] => []

/-- A `MultiSignature` codec with no unrecognized fields to report. -/
def escapeCodec : MultiSignatureCodec where
  marshal := fun multisig => .ok (multisig.signatures.flatMap escapeSig)
  unmarshal := fun bz => .ok ⟨unescape bz [], []⟩

theorem unescape_escapeSig (sig more current : Bytes) :
    unescape (escapeSig sig ++ more) current = (current ++ sig) :: unescape more [] := by
  induction sig generalizing current with
  | nil =>
      show unescape (0 :: more) current = (current ++ []) :: _
      rw [unescape.eq_def]
      simp
  | cons b rest induction =>
      show unescape (1 :: b :: (escapeSig rest ++ more)) current = _
      rw [unescape.eq_def]
      simp [induction]

theorem escapeCodec_roundTrips : escapeCodec.RoundTrips := by
  intro signatures
  refine ⟨_, rfl, ?_⟩
  have unescaped : ∀ sigs : List Bytes, unescape (sigs.flatMap escapeSig) [] = sigs := by
    intro sigs
    induction sigs with
    | nil => rfl
    | cons sig rest induction => simp [unescape_escapeSig, induction]
  simp only [escapeCodec, unescaped]

/-- A `*ModeInfo`: the nil pointer, a value whose `Sum` is nil,
`ModeInfo_Single` or `ModeInfo_Multi`. -/
inductive ModeInfo where
  | nil
  | empty
  | single (mode : SignMode)
  | multi (bitarray : Option CompactBitArray) (modeInfos : List ModeInfo)
  deriving Repr

variable (codec : MultiSignatureCodec)

mutual

/-- `SignatureDataToModeInfoAndSig`. -/
def signatureDataToModeInfoAndSig : SignatureData → Result (ModeInfo × Bytes)
  | .nil => pure (.nil, [])
  | .single signMode signature => pure (.single signMode, signature)
  | .multi bitArray signatures => do
      let (modeInfos, sigs) ← signaturesToModeInfosAndSigs signatures
      match codec.marshal ⟨sigs, []⟩ with
      | .ok sig => pure (.multi bitArray modeInfos, sig)
      | .error err => panicWith err

/-- The loop of `SignatureDataToModeInfoAndSig` that fills `modeInfos` and
`sigs`, one place for each nested signature. -/
def signaturesToModeInfosAndSigs : List SignatureData → Result (List ModeInfo × List Bytes)
  | [] => pure ([], [])
  | d :: rest => do
      let (modeInfo, sig) ← signatureDataToModeInfoAndSig d
      let (modeInfos, sigs) ← signaturesToModeInfosAndSigs rest
      pure (modeInfo :: modeInfos, sig :: sigs)

end

/-- `decodeMultisignatures`. -/
def decodeMultisignatures (bz : Bytes) : Result (List Bytes) :=
  match codec.unmarshal bz with
  | .error err => fail err
  | .ok multisig =>
      if multisig.unrecognized.length > 0 then
        fail "rejecting unrecognized fields found in MultiSignature"
      else pure multisig.signatures

/-- The message of the `default` case of `ModeInfoAndSigToSignatureData`: `%T`
of a nil interface value. -/
def unexpectedModeInfo : String := "unexpected ModeInfo data type <nil>"

mutual

/-- `ModeInfoAndSigToSignatureData`. -/
def modeInfoAndSigToSignatureData : ModeInfo → Bytes → Result SignatureData
  | .nil, _ => panicWith nilDereference
  | .empty, _ => panicWith unexpectedModeInfo
  | .single mode, sig => pure (.single mode sig)
  | .multi bitarray modeInfos, sig => do
      let sigs ← decodeMultisignatures codec sig
      let sigv2s ← modeInfosToSignatureData 0 modeInfos sigs (List.replicate sigs.length .nil)
      pure (.multi bitarray sigv2s)

/-- The loop of `ModeInfoAndSigToSignatureData`, from place `i` on: for each
mode information, `sigv2s[i], err = ModeInfoAndSigToSignatureData(mi, sigs[i])`. -/
def modeInfosToSignatureData (i : Nat) :
    List ModeInfo → List Bytes → List SignatureData → Result (List SignatureData)
  | [], _, sigv2s => pure sigv2s
  | modeInfo :: rest, sigs, sigv2s => do
      let sig ← index sigs i
      let sigv2 ← modeInfoAndSigToSignatureData modeInfo sig
      let sigv2s ← assign sigv2s i sigv2
      modeInfosToSignatureData (i + 1) rest sigs sigv2s

end

theorem decodeMultisignatures_of_roundTrips (roundTrips : codec.RoundTrips) (sigs : List Bytes) :
    ∃ bz, codec.marshal ⟨sigs, []⟩ = .ok bz ∧ decodeMultisignatures codec bz = .ok sigs := by
  obtain ⟨bz, marshalled, unmarshalled⟩ := roundTrips sigs
  refine ⟨bz, marshalled, ?_⟩
  simp only [decodeMultisignatures, unmarshalled, List.length_nil, gt_iff_lt, Nat.lt_irrefl, ↓reduceIte]
  rfl

/-- One turn of the decoding loop at the place after a decoded prefix. -/
theorem modeInfosToSignatureData_cons (modeInfo : ModeInfo) (modeInfos : List ModeInfo)
    (pre sigs : List Bytes) (sig : Bytes) (decoded rest : List SignatureData) (sigv2 : SignatureData)
    (lengths : pre.length = decoded.length)
    (pairs : modeInfoAndSigToSignatureData codec modeInfo sig = .ok sigv2) :
    modeInfosToSignatureData codec pre.length (modeInfo :: modeInfos) (pre ++ sig :: sigs)
        (decoded ++ .nil :: rest) =
      modeInfosToSignatureData codec (pre ++ [sig]).length modeInfos (pre ++ [sig] ++ sigs)
        (decoded ++ [sigv2] ++ rest) := by
  have read : index (pre ++ sig :: sigs) pre.length = .ok sig := by
    rw [index_natCast_of_lt _ _ (by simp)]
    simp
  have written : assign (decoded ++ .nil :: rest) pre.length sigv2 = .ok (decoded ++ [sigv2] ++ rest) := by
    rw [assign_natCast_of_lt _ _ _ (by simp [lengths])]
    simp [lengths]
  rw [modeInfosToSignatureData, read, ok_bind, pairs, ok_bind, written, ok_bind, List.length_append,
    List.length_singleton]
  simp only [List.append_assoc, List.singleton_append]

/-- The nested signatures of a multisignature, each of which decodes from its
own encoding, decode together from the lists the encoder packs: the loop,
started after any decoded prefix, fills the remaining places in order. -/
theorem modeInfosToSignatureData_of_encoded (signatures : List SignatureData)
    (children : ∀ child ∈ signatures, ∃ modeInfo sig,
      signatureDataToModeInfoAndSig codec child = .ok (modeInfo, sig) ∧
        modeInfoAndSigToSignatureData codec modeInfo sig = .ok child) :
    ∃ modeInfos sigs, signaturesToModeInfosAndSigs codec signatures = .ok (modeInfos, sigs) ∧
      sigs.length = signatures.length ∧
      ∀ (pre : List Bytes) (decoded : List SignatureData), pre.length = decoded.length →
        modeInfosToSignatureData codec pre.length modeInfos (pre ++ sigs)
          (decoded ++ List.replicate sigs.length .nil) = .ok (decoded ++ signatures) := by
  induction signatures with
  | nil => exact ⟨[], [], rfl, rfl, fun _ decoded _ => by simp [modeInfosToSignatureData]⟩
  | cons head tail induction =>
      obtain ⟨modeInfo, sig, encoded, pairs⟩ := children head List.mem_cons_self
      obtain ⟨modeInfos, sigs, restEncoded, restLength, restDecodes⟩ :=
        induction fun child member => children child (List.mem_cons_of_mem head member)
      refine ⟨modeInfo :: modeInfos, sig :: sigs, ?_, by simp [restLength], ?_⟩
      · simp only [signaturesToModeInfosAndSigs, encoded, restEncoded, ok_bind, pure_eq_ok]
      · intro pre decoded lengths
        rw [List.length_cons, List.replicate_succ,
          modeInfosToSignatureData_cons codec modeInfo modeInfos pre sigs sig decoded _ head lengths pairs,
          restDecodes (pre ++ [sig]) (decoded ++ [head]) (by simp [lengths]), List.append_assoc,
          List.singleton_append]

/-- `ModeInfoAndSigToSignatureData` reads back what
`SignatureDataToModeInfoAndSig` writes, for every tree without a nil interface
value: the encoder does not panic and the decoder returns the tree. -/
theorem modeInfoAndSigToSignatureData_of_noNil (roundTrips : codec.RoundTrips) {data : SignatureData}
    (noNil : data.NoNil) :
    ∃ modeInfo sig, signatureDataToModeInfoAndSig codec data = .ok (modeInfo, sig) ∧
      modeInfoAndSigToSignatureData codec modeInfo sig = .ok data := by
  induction noNil with
  | single signMode signature => exact ⟨_, _, rfl, rfl⟩
  | multi bitArray signatures _ induction =>
      obtain ⟨modeInfos, sigs, encoded, lengths, decodes⟩ :=
        modeInfosToSignatureData_of_encoded codec signatures induction
      obtain ⟨bz, marshalled, unpacked⟩ := decodeMultisignatures_of_roundTrips codec roundTrips sigs
      refine ⟨.multi bitArray modeInfos, bz, ?_, ?_⟩
      · simp only [signatureDataToModeInfoAndSig, encoded, ok_bind, marshalled]
        rfl
      · have looped := decodes [] [] rfl
        simp only [List.nil_append, List.length_nil] at looped
        simp only [modeInfoAndSigToSignatureData, unpacked, ok_bind, looped]
        rfl

/-- Both encodings of signature data round-trip: for every `SignatureData`
tree without a nil interface value, `ModeInfoAndSigToSignatureData` of what
`SignatureDataToModeInfoAndSig` returns is the tree, with no error or panic on
either side, and so is `SignatureDataFromProto` of `SignatureDataToProto`. -/
theorem signatureData_encodings_round_trip (roundTrips : codec.RoundTrips) (data : SignatureData)
    (noNil : data.NoNil) :
    (∃ modeInfo sig, signatureDataToModeInfoAndSig codec data = .ok (modeInfo, sig) ∧
      modeInfoAndSigToSignatureData codec modeInfo sig = .ok data) ∧
    (signatureDataToProto data >>= signatureDataFromProto) = .ok data :=
  ⟨modeInfoAndSigToSignatureData_of_noNil codec roundTrips noNil,
    SignatureData.signatureDataFromProto_toProto noNil⟩

/-- A multisignature over a direct-mode signature and a nested multisignature
over one amino-JSON signature. -/
def nestedSignatureData : SignatureData :=
  .multi none [.single SignMode.signModeDirect [5], .multi none [.single SignMode.signModeLegacyAminoJson []]]

theorem signatureData_encodings_round_trip_nested :
    (∃ modeInfo sig, signatureDataToModeInfoAndSig escapeCodec nestedSignatureData = .ok (modeInfo, sig) ∧
      modeInfoAndSigToSignatureData escapeCodec modeInfo sig = .ok nestedSignatureData) ∧
    (signatureDataToProto nestedSignatureData >>= signatureDataFromProto) = .ok nestedSignatureData :=
  signatureData_encodings_round_trip escapeCodec escapeCodec_roundTrips _
    (.multi _ _ fun child member => by
      simp only [List.mem_cons, List.not_mem_nil, or_false] at member
      rcases member with rfl | rfl
      · exact .single _ _
      · exact .multi _ _ fun grandchild inner => by
          simp only [List.mem_cons, List.not_mem_nil, or_false] at inner
          subst inner
          exact .single _ _)

/-! ## What the decoder accepts -/

/-- The decoding loop writes only the places it has mode information for: the
result is as long as the slice it starts from, and from the place after the
last mode information on it is that slice. -/
theorem modeInfosToSignatureData_drop (i : Nat) (modeInfos : List ModeInfo) (sigs : List Bytes)
    (sigv2s result : List SignatureData)
    (decoded : modeInfosToSignatureData codec i modeInfos sigs sigv2s = .ok result) :
    result.length = sigv2s.length ∧
      result.drop (i + modeInfos.length) = sigv2s.drop (i + modeInfos.length) := by
  induction modeInfos generalizing i sigv2s with
  | nil =>
      cases decoded
      exact ⟨rfl, rfl⟩
  | cons modeInfo rest induction =>
      rw [modeInfosToSignatureData] at decoded
      obtain ⟨sig, -, afterRead⟩ := bind_eq_ok.mp decoded
      obtain ⟨sigv2, -, afterDecode⟩ := bind_eq_ok.mp afterRead
      obtain ⟨written, assigned, looped⟩ := bind_eq_ok.mp afterDecode
      obtain ⟨n, same, inside, rfl⟩ := assign_eq_ok assigned
      have place : n = i := by exact_mod_cast same.symm
      subst place
      obtain ⟨length, tail⟩ := induction (n + 1) _ looped
      refine ⟨by simpa using length, ?_⟩
      -- the one place written, `n`, lies before the tail
      rw [List.length_cons, show n + (rest.length + 1) = n + 1 + rest.length by omega, tail,
        List.drop_set_of_lt (by omega)]

/-- `ModeInfoAndSigToSignatureData` does not check that a multisignature has
mode information for each of its packed signatures: it returns one nested
signature per packed signature, and the places past the mode information hold
the nil interface value. -/
theorem modeInfoAndSigToSignatureData_multi_nil_past_modeInfos (bitarray : Option CompactBitArray)
    (modeInfos : List ModeInfo) (bz : Bytes) (result : SignatureData)
    (decoded : modeInfoAndSigToSignatureData codec (.multi bitarray modeInfos) bz = .ok result) :
    ∃ sigs children, decodeMultisignatures codec bz = .ok sigs ∧ result = .multi bitarray children ∧
      children.length = sigs.length ∧ ∀ child ∈ children.drop modeInfos.length, child = .nil := by
  rw [modeInfoAndSigToSignatureData] at decoded
  obtain ⟨sigs, unpacked, afterUnpack⟩ := bind_eq_ok.mp decoded
  obtain ⟨children, looped, returned⟩ := bind_eq_ok.mp afterUnpack
  obtain ⟨length, tail⟩ := modeInfosToSignatureData_drop codec 0 modeInfos sigs _ children looped
  refine ⟨sigs, children, unpacked, (Except.ok.inj returned).symm, by simpa using length, ?_⟩
  intro child member
  rw [Nat.zero_add] at tail
  rw [tail, List.drop_replicate] at member
  exact List.eq_of_mem_replicate member

example :
    modeInfoAndSigToSignatureData escapeCodec (.multi none []) (escapeSig [5]) = .ok (.multi none [.nil]) ∧
      ∃ sigs children, decodeMultisignatures escapeCodec (escapeSig [5]) = .ok sigs ∧
        SignatureData.multi none [.nil] = .multi none children ∧ children.length = sigs.length ∧
        ∀ child ∈ children.drop 0, child = .nil :=
  ⟨rfl, modeInfoAndSigToSignatureData_multi_nil_past_modeInfos escapeCodec none [] _ _ rfl⟩

/-- The decoding loop reads `sigs[i]` for each mode information before it
writes anything: with only single modes, and more of them than signatures from
place `i` on, it panics at the first place past the signatures. -/
theorem modeInfosToSignatureData_single_past_sigs (modes : List SignMode) (sigs : List Bytes)
    (i : Nat) (sigv2s : List SignatureData) (reached : i ≤ sigs.length)
    (longer : sigs.length < i + modes.length) (sized : sigv2s.length = sigs.length) :
    modeInfosToSignatureData codec i (modes.map .single) sigs sigv2s =
      panicWith (indexOutOfRange sigs.length sigs.length) := by
  induction modes generalizing i sigv2s with
  | nil => simp at longer; omega
  | cons mode rest induction =>
      rw [List.map_cons, modeInfosToSignatureData]
      by_cases inside : i < sigs.length
      · -- a signature to pair with: the place is read, decoded and written
        rw [index_natCast_of_lt sigs i inside, ok_bind, modeInfoAndSigToSignatureData, pure_eq_ok,
          ok_bind, assign_natCast_of_lt sigv2s i _ (by omega), ok_bind]
        exact induction (i + 1) _ inside (by simp at longer; omega) (by simpa using sized)
      · -- the first mode information with no signature
        have last : i = sigs.length := by omega
        subst last
        rw [index_natCast_of_le sigs sigs.length le_rfl, panicWith_bind]

/-- `ModeInfoAndSigToSignatureData` sizes its result by the decoded signatures
but loops over the mode information: a multisignature with more (single) modes
than packed signatures panics with an index out of range, not an error. -/
theorem modeInfoAndSigToSignatureData_multi_panics_past_sigs (bitarray : Option CompactBitArray)
    (modes : List SignMode) (bz : Bytes) (sigs : List Bytes)
    (decoded : decodeMultisignatures codec bz = .ok sigs) (longer : sigs.length < modes.length) :
    modeInfoAndSigToSignatureData codec (.multi bitarray (modes.map .single)) bz =
      panicWith (indexOutOfRange sigs.length sigs.length) := by
  rw [modeInfoAndSigToSignatureData, decoded, ok_bind,
    modeInfosToSignatureData_single_past_sigs codec modes sigs 0 _ (Nat.zero_le _) (by omega)
      List.length_replicate, panicWith_bind]

theorem modeInfoAndSigToSignatureData_multi_panics_past_sigs_empty :
    decodeMultisignatures escapeCodec [] = .ok [] ∧ ([] : List Bytes).length < [SignMode.signModeDirect].length ∧
      modeInfoAndSigToSignatureData escapeCodec (.multi none [.single SignMode.signModeDirect]) [] =
        panicWith (indexOutOfRange 0 0) :=
  ⟨rfl, by decide,
    modeInfoAndSigToSignatureData_multi_panics_past_sigs escapeCodec none [SignMode.signModeDirect] []
      [] rfl (by decide)⟩

end CoreSdk.Tx
