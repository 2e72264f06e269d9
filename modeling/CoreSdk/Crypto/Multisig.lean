import CoreSdk.Tx.Signing

/-!
# Multisignature verification

A transcription of `LegacyAminoPubKey.VerifyMultisignature`
(`common/crypto/keys/multisig/multisig.go`). A key of the list is either a
single-signer key of an abstract type `Key`, checked by a parameter
`verifySignature` (the key type's `VerifySignature`), or a nested
`LegacyAminoPubKey`, whose own `VerifySignature` panics with "not
implemented". `getSignBytes` is the caller's `GetSignBytesFunc`.

The verifier is two mutually recursive functions: `verifyMultisignature`
makes the three size checks, and `verifySigners` is the `for` loop over the
bit array, carrying `sigIndex` and recursing into nested multisignatures. The
recursion descends into the signature tree, so it terminates on every input.
-/

namespace CoreSdk.Crypto.Multisig

open Go CoreSdk.Tx CoreSdk.Crypto.CompactBitArray

set_option autoImplicit false

/-- A key a `LegacyAminoPubKey` holds: a single-signer key or a nested multisig key. -/
inductive PubKey (Key : Type) where
  | single (key : Key)
  | legacyAmino (threshold : UInt32) (pubKeys : List (PubKey Key))

structure LegacyAminoPubKey (Key : Type) where
  threshold : UInt32
  pubKeys : List (PubKey Key)

/-- `multisig.GetSignBytesFunc`: the sign bytes for a mode, or an error. -/
abbrev GetSignBytesFunc := SignMode → Except String Bytes

section Verify

variable {Key : Type} (getSignBytes : GetSignBytesFunc)
  (verifySignature : Key → Bytes → Bytes → Bool)

/-- `pubKeys[i].VerifySignature(msg, sig)`; a nested multisig key panics. -/
def verifyKeySignature : PubKey Key → Bytes → Bytes → Result Bool
  | .single key, msg, signature => pure (verifySignature key msg signature)
  | .legacyAmino _ _, _, _ => panicWith "not implemented"

mutual

/-- `VerifyMultisignature`: the size checks, then the loop over the bit array. -/
def verifyMultisignature (m : LegacyAminoPubKey Key) (sig : MultiSignatureData) :
    Result Unit :=
  let size := count sig.bitArray
  if (m.pubKeys.length : Int) ≠ size then
    fail ("bit array size is incorrect " ++ toString m.pubKeys.length)
  else if sig.signatures.length < m.threshold.toNat ∨ (sig.signatures.length : Int) > size then
    fail ("signature size is incorrect " ++ toString sig.signatures.length)
  else do
    let numTrue ← numTrueBitsBefore sig.bitArray size
    if numTrue < m.threshold.toNat then
      -- the message calls `NumTrueBitsBefore(size)` again, with the same result
      fail ("minimum number of signatures not set, have " ++ toString numTrue ++
        ", expected " ++ toString m.threshold.toNat)
    else verifySigners m.pubKeys sig.bitArray sig.signatures size.toNat 0 0
termination_by (sizeOf sig.signatures, 1, 0)

/-- The loop `for i := 0; i < size; i++` from index `i`, with `sigIndex` the
position in `Signatures` of the next set bit's signature. -/
def verifySigners (pubKeys : List (PubKey Key)) (bitarray : Option CompactBitArray)
    (sigs : List SignatureData) (size i sigIndex : Nat) : Result Unit :=
  if i < size then do
    let isSet ← getIndex bitarray i
    if isSet then
      match _found : sigs[sigIndex]? with
      | none => panicWith (indexOutOfRange sigIndex sigs.length)
      | some (.single signMode signature) =>
          match getSignBytes signMode with
          | .error err => fail err
          | .ok msg => do
              let pk ← index pubKeys i
              let verified ← verifyKeySignature verifySignature pk msg signature
              if verified then verifySigners pubKeys bitarray sigs size (i + 1) (sigIndex + 1)
              else fail ("unable to verify signature at index " ++ toString i)
      | some (.multi nestedBitArray nestedSigs) => do
          let pk ← index pubKeys i
          match pk with
          | .legacyAmino threshold nestedKeys => do
              verifyMultisignature ⟨threshold, nestedKeys⟩ ⟨nestedBitArray, nestedSigs⟩
              verifySigners pubKeys bitarray sigs size (i + 1) (sigIndex + 1)
          | .single _ => fail ("unable to parse pubkey of index " ++ toString i)
      | some .nil => fail ("improper signature data type for index " ++ toString sigIndex)
    else verifySigners pubKeys bitarray sigs size (i + 1) sigIndex
  else pure ()
termination_by (sizeOf sigs, 0, size - i)
decreasing_by
  all_goals first
    | exact Prod.Lex.right _ (Prod.Lex.right _ (by omega))
    | apply Prod.Lex.left
      -- the nested signature list is inside the entry `sigs[sigIndex]`
      have member := List.sizeOf_lt_of_mem (List.mem_of_getElem? _found)
      simp only [SignatureData.multi.sizeOf_spec] at member
      omega

end

/-! ## One equation per path of the loop -/

section Steps

variable {pubKeys : List (PubKey Key)} {bitarray : Option CompactBitArray}
  {sigs : List SignatureData} {size i sigIndex : Nat}

theorem verifyMultisignature_of_checks {m : LegacyAminoPubKey Key} {sig : MultiSignatureData}
    {numTrue : Nat} (keysMatch : (m.pubKeys.length : Int) = count sig.bitArray)
    (enough : m.threshold.toNat ≤ sig.signatures.length)
    (notTooMany : (sig.signatures.length : Int) ≤ count sig.bitArray)
    (counted : numTrueBitsBefore sig.bitArray (count sig.bitArray) = .ok numTrue)
    (threshold : m.threshold.toNat ≤ numTrue) :
    verifyMultisignature getSignBytes verifySignature m sig =
      verifySigners getSignBytes verifySignature m.pubKeys sig.bitArray sig.signatures
        (count sig.bitArray).toNat 0 0 := by
  rw [verifyMultisignature, if_neg (by omega), if_neg (by omega), counted, ok_bind,
    if_neg (by omega)]

theorem verifySigners_done (finished : size ≤ i) :
    verifySigners getSignBytes verifySignature pubKeys bitarray sigs size i sigIndex = .ok () := by
  rw [verifySigners, if_neg (by omega)]
  rfl

theorem verifySigners_unset (inside : i < size) (unset : getIndex bitarray i = .ok false) :
    verifySigners getSignBytes verifySignature pubKeys bitarray sigs size i sigIndex =
      verifySigners getSignBytes verifySignature pubKeys bitarray sigs size (i + 1) sigIndex := by
  rw [verifySigners, if_pos inside, unset, ok_bind, if_neg Bool.false_ne_true]

theorem verifySigners_single {key : Key} {signMode : SignMode} {signature msg : Bytes}
    (inside : i < size) (set : getIndex bitarray i = .ok true)
    (sigFound : sigs[sigIndex]? = some (.single signMode signature))
    (signBytes : getSignBytes signMode = .ok msg) (keyFound : pubKeys[i]? = some (.single key))
    (verified : verifySignature key msg signature = true) :
    verifySigners getSignBytes verifySignature pubKeys bitarray sigs size i sigIndex =
      verifySigners getSignBytes verifySignature pubKeys bitarray sigs size (i + 1)
        (sigIndex + 1) := by
  have keyInside : i < pubKeys.length := (List.getElem?_eq_some_iff.mp keyFound).1
  have keyAt : pubKeys[i] = .single key := (List.getElem?_eq_some_iff.mp keyFound).2
  rw [verifySigners, if_pos inside, set, ok_bind, if_pos rfl]
  split
  · rename_i missing
    rw [sigFound] at missing
    cases missing
  · rename_i signMode' signature' found
    rw [sigFound, Option.some.injEq, SignatureData.single.injEq] at found
    obtain ⟨rfl, rfl⟩ := found
    rw [signBytes]
    simp only [index_natCast_of_lt _ _ keyInside, keyAt, ok_bind, verifyKeySignature, verified,
      pure_eq_ok, if_true]
  · rename_i found
    rw [sigFound] at found
    cases found
  · rename_i found
    rw [sigFound] at found
    cases found

theorem verifySigners_missing (inside : i < size) (set : getIndex bitarray i = .ok true)
    (missing : sigs.length ≤ sigIndex) :
    verifySigners getSignBytes verifySignature pubKeys bitarray sigs size i sigIndex =
      panicWith (indexOutOfRange sigIndex sigs.length) := by
  rw [verifySigners, if_pos inside, set, ok_bind, if_pos rfl]
  split
  · rfl
  all_goals
    rename_i found
    rw [List.getElem?_eq_none missing] at found
    cases found

end Steps

/-! ## What an accepted multisignature establishes -/

/-- `pk` is authorized by `sd`: a single signature over the sign bytes of its
mode that the key verifies, or a multisignature in which at least `threshold`
distinct set bits `i` each have their signature, the entry of rank `i` among
the set bits, authorizing key `i`. -/
inductive Authorizes : PubKey Key → SignatureData → Prop
  | single {key : Key} {signMode : SignMode} {signature msg : Bytes} :
      getSignBytes signMode = .ok msg → verifySignature key msg signature = true →
      Authorizes (.single key) (.single signMode signature)
  | multi {threshold : UInt32} {pubKeys : List (PubKey Key)}
      {bitArray : Option CompactBitArray} {signatures : List SignatureData}
      (signers : List Nat) :
      signers.Nodup → threshold.toNat ≤ signers.length →
      (∀ i ∈ signers, i < pubKeys.length ∧ bit bitArray i = true ∧
        trueBitsBefore bitArray i < signatures.length) →
      (∀ i ∈ signers, ∀ pk sd, pubKeys[i]? = some pk →
        signatures[trueBitsBefore bitArray i]? = some sd → Authorizes pk sd) →
      Authorizes (.legacyAmino threshold pubKeys) (.multi bitArray signatures)

/-- Key `i` and the signature of rank `i` accept each other, as one iteration checks them. -/
def SignerAccepted (pk : PubKey Key) (sd : SignatureData) : Prop :=
  (∃ key signMode signature msg, pk = .single key ∧ sd = .single signMode signature ∧
    getSignBytes signMode = .ok msg ∧ verifySignature key msg signature = true) ∨
  (∃ threshold nestedKeys nestedBitArray nestedSigs,
    pk = .legacyAmino threshold nestedKeys ∧ sd = .multi nestedBitArray nestedSigs ∧
    verifyMultisignature getSignBytes verifySignature ⟨threshold, nestedKeys⟩
      ⟨nestedBitArray, nestedSigs⟩ = .ok ())

/-- One iteration of the loop that lets the run go on: an unset bit is skipped,
a set bit has its signature at `sigIndex` and its key at `i`, and they accept
each other. -/
theorem verifySigners_ok_step {pubKeys : List (PubKey Key)} {bitarray : Option CompactBitArray}
    {sigs : List SignatureData} {size i sigIndex : Nat} (inside : i < size)
    (run : verifySigners getSignBytes verifySignature pubKeys bitarray sigs size i sigIndex =
      .ok ()) :
    (bit bitarray i = false ∧
      verifySigners getSignBytes verifySignature pubKeys bitarray sigs size (i + 1) sigIndex =
        .ok ()) ∨
    (bit bitarray i = true ∧ ∃ pk sd, pubKeys[i]? = some pk ∧ sigs[sigIndex]? = some sd ∧
      SignerAccepted getSignBytes verifySignature pk sd ∧
      verifySigners getSignBytes verifySignature pubKeys bitarray sigs size (i + 1)
        (sigIndex + 1) = .ok ()) := by
  rw [verifySigners, if_pos inside] at run
  obtain ⟨isSet, read, rest⟩ := bind_eq_ok.mp run
  have isBit := getIndex_ok_eq_bit bitarray i isSet read
  cases isSet with
  | false =>
      rw [if_neg Bool.false_ne_true] at rest
      exact .inl ⟨isBit.symm, rest⟩
  | true =>
      rw [if_pos rfl] at rest
      refine .inr ⟨isBit.symm, ?_⟩
      split at rest
      · exact absurd rest (panicWith_ne_ok _ _)
      · rename_i signMode signature lookup
        split at rest
        · exact absurd rest (fail_ne_ok _ _)
        · rename_i msg signBytes
          obtain ⟨pk, keyLookup, rest⟩ := bind_eq_ok.mp rest
          obtain ⟨n, same, keyFound⟩ := index_eq_ok keyLookup
          rw [Int.natCast_inj] at same
          subst same
          obtain ⟨verified, check, rest⟩ := bind_eq_ok.mp rest
          cases pk with
          | legacyAmino threshold nestedKeys => exact absurd check (panicWith_ne_ok _ _)
          | single key =>
              cases verified with
              | false => exact absurd rest (fail_ne_ok _ _)
              | true =>
                  rw [verifyKeySignature, pure_eq_ok, Except.ok.injEq] at check
                  exact ⟨_, _, keyFound, lookup,
                    .inl ⟨key, signMode, signature, msg, rfl, rfl, signBytes, check⟩, rest⟩
      · rename_i nestedBitArray nestedSigs lookup
        obtain ⟨pk, keyLookup, rest⟩ := bind_eq_ok.mp rest
        obtain ⟨n, same, keyFound⟩ := index_eq_ok keyLookup
        rw [Int.natCast_inj] at same
        subst same
        cases pk with
        | single key => exact absurd rest (fail_ne_ok _ _)
        | legacyAmino threshold nestedKeys =>
            obtain ⟨_, nested, rest⟩ := bind_eq_ok.mp rest
            exact ⟨_, _, keyFound, lookup, .inr ⟨threshold, nestedKeys, nestedBitArray, nestedSigs,
              rfl, rfl, nested⟩, rest⟩
      · exact absurd rest (fail_ne_ok _ _)

/-- The loop invariant: a run of the loop from `i` that returns, entered with
`sigIndex` at the rank of `i`, has checked every set bit from `i` on. Nested
multisignatures are sound by the hypothesis `nestedSound`, which the induction
on the signature tree supplies. -/
theorem verifySigners_sound {pubKeys : List (PubKey Key)} {bitarray : Option CompactBitArray}
    {sigs : List SignatureData} {size : Nat}
    (nestedSound : ∀ threshold nestedKeys nestedBitArray nestedSigs,
      SignatureData.multi nestedBitArray nestedSigs ∈ sigs →
      verifyMultisignature getSignBytes verifySignature ⟨threshold, nestedKeys⟩
        ⟨nestedBitArray, nestedSigs⟩ = .ok () →
      Authorizes getSignBytes verifySignature (.legacyAmino threshold nestedKeys)
        (.multi nestedBitArray nestedSigs))
    (i sigIndex : Nat) (position : sigIndex = trueBitsBefore bitarray i)
    (run : verifySigners getSignBytes verifySignature pubKeys bitarray sigs size i sigIndex =
      .ok ()) :
    ∀ j, i ≤ j → j < size → bit bitarray j = true →
      j < pubKeys.length ∧ trueBitsBefore bitarray j < sigs.length ∧
      ∀ pk sd, pubKeys[j]? = some pk → sigs[trueBitsBefore bitarray j]? = some sd →
        Authorizes getSignBytes verifySignature pk sd := by
  induction remaining : size - i generalizing i sigIndex with
  | zero =>
      intro j lower upper
      omega
  | succ remaining induction =>
      have inside : i < size := by omega
      intro j lower upper isSet
      rcases verifySigners_ok_step getSignBytes verifySignature inside run with
        ⟨unset, rest⟩ | ⟨set, pk, sd, keyFound, sigFound, accepted, rest⟩
      · -- an unset bit leaves `sigIndex` at the rank of `i + 1`
        have next : sigIndex = trueBitsBefore bitarray (i + 1) := by
          rw [trueBitsBefore_succ, unset, position]
          rfl
        have later : i + 1 ≤ j := by
          rcases Nat.lt_or_eq_of_le lower with after | same
          · exact after
          · subst same
            rw [unset] at isSet
            cases isSet
        exact induction (i + 1) sigIndex next rest (by omega) j later upper isSet
      · have next : sigIndex + 1 = trueBitsBefore bitarray (i + 1) := by
          rw [trueBitsBefore_succ, set, position]
          rfl
        rcases Nat.lt_or_eq_of_le lower with later | same
        · exact induction (i + 1) (sigIndex + 1) next rest (by omega) j later upper isSet
        · -- the set bit checked by this iteration
          subst same
          rw [← position]
          refine ⟨(List.getElem?_eq_some_iff.mp keyFound).1,
            (List.getElem?_eq_some_iff.mp sigFound).1, ?_⟩
          intro pk' sd' keyFound' sigFound'
          rw [keyFound, Option.some.injEq] at keyFound'
          rw [sigFound, Option.some.injEq] at sigFound'
          subst keyFound' sigFound'
          rcases accepted with
            ⟨key, signMode, signature, msg, rfl, rfl, signBytes, verified⟩ |
            ⟨threshold, nestedKeys, nestedBitArray, nestedSigs, rfl, rfl, nested⟩
          · exact .single signBytes verified
          · exact nestedSound _ _ _ _ (List.mem_of_getElem? sigFound) nested

private theorem verifyMultisignature_sound_below (bound : Nat) :
    ∀ (m : LegacyAminoPubKey Key) (sig : MultiSignatureData), sizeOf sig.signatures < bound →
      verifyMultisignature getSignBytes verifySignature m sig = .ok () →
      Authorizes getSignBytes verifySignature (.legacyAmino m.threshold m.pubKeys)
        (.multi sig.bitArray sig.signatures) := by
  induction bound with
  | zero =>
      intro m sig below
      omega
  | succ bound induction =>
      intro m sig below verified
      rw [verifyMultisignature] at verified
      split_ifs at verified with sizeMismatch signatureCount
      · exact absurd verified (fail_ne_ok _ _)
      · exact absurd verified (fail_ne_ok _ _)
      · obtain ⟨numTrue, counted, rest⟩ := bind_eq_ok.mp verified
        have numTrueEq := numTrueBitsBefore_ok_eq _ _ _ counted
        split_ifs at rest with tooFew
        · exact absurd rest (fail_ne_ok _ _)
        · have sizeEq : (count sig.bitArray).toNat = m.pubKeys.length := by omega
          have nestedSound : ∀ threshold nestedKeys nestedBitArray nestedSigs,
              SignatureData.multi nestedBitArray nestedSigs ∈ sig.signatures →
              verifyMultisignature getSignBytes verifySignature ⟨threshold, nestedKeys⟩
                ⟨nestedBitArray, nestedSigs⟩ = .ok () →
              Authorizes getSignBytes verifySignature (.legacyAmino threshold nestedKeys)
                (.multi nestedBitArray nestedSigs) := by
            intro threshold nestedKeys nestedBitArray nestedSigs member nested
            have smaller := List.sizeOf_lt_of_mem member
            simp only [SignatureData.multi.sizeOf_spec] at smaller
            exact induction ⟨threshold, nestedKeys⟩ ⟨nestedBitArray, nestedSigs⟩ (by simp; omega)
              nested
          have checked := verifySigners_sound getSignBytes verifySignature nestedSound 0 0 rfl rest
          -- the signers are the set bits below `Count`
          refine .multi ((List.range (count sig.bitArray).toNat).filter (bit sig.bitArray))
            (List.nodup_range.filter _) ?_ ?_ ?_
          · rw [← List.countP_eq_length_filter]
            rw [numTrueEq] at tooFew
            exact Nat.le_of_not_lt tooFew
          · intro j member
            obtain ⟨inRange, isSet⟩ := List.mem_filter.mp member
            have below := List.mem_range.mp inRange
            obtain ⟨keyBound, sigBound, _⟩ := checked j (Nat.zero_le j) below isSet
            exact ⟨keyBound, isSet, sigBound⟩
          · intro j member
            obtain ⟨inRange, isSet⟩ := List.mem_filter.mp member
            exact (checked j (Nat.zero_le j) (List.mem_range.mp inRange) isSet).2.2

/-- Soundness of multisignature verification: a nil return means that at least
`threshold` distinct set bits below the key count each carry, at their rank
among the set bits, a signature that authorizes their key, recursively. -/
theorem verifyMultisignature_authorizes (m : LegacyAminoPubKey Key) (sig : MultiSignatureData)
    (verified : verifyMultisignature getSignBytes verifySignature m sig = .ok ()) :
    Authorizes getSignBytes verifySignature (.legacyAmino m.threshold m.pubKeys)
      (.multi sig.bitArray sig.signatures) :=
  verifyMultisignature_sound_below getSignBytes verifySignature _ m sig (Nat.lt_succ_self _)
    verified

end Verify

/-- A one-of-one key with its bit set and its single signature accepted. -/
theorem verifyMultisignature_authorizes_one_of_one :
    verifyMultisignature (fun _ => .ok []) (fun (_ : Unit) _ _ => true)
        ⟨1, [.single ()]⟩ ⟨some ⟨1, [0x80]⟩, [.single ⟨0⟩ []]⟩ = .ok () ∧
      Authorizes (fun _ => .ok []) (fun (_ : Unit) _ _ => true) (.legacyAmino 1 [.single ()])
        (.multi (some ⟨1, [0x80]⟩) [.single ⟨0⟩ []]) := by
  have run : verifyMultisignature (fun _ => .ok []) (fun (_ : Unit) _ _ => true)
      ⟨1, [.single ()]⟩ ⟨some ⟨1, [0x80]⟩, [.single ⟨0⟩ []]⟩ = .ok () := by
    rw [verifyMultisignature_of_checks _ _ (by decide) (by decide) (by decide)
      (numTrueBitsBefore_eq _ (by decide) _) (by decide),
      verifySigners_single _ _ (by decide) (getIndex_natCast _ (by decide) 0) rfl rfl rfl rfl]
    exact verifySigners_done _ _ (by decide)
  exact ⟨run, verifyMultisignature_authorizes _ _ _ _ run⟩

/-- Two set bits but one signature: the size checks pass (one signature meets the
threshold and does not exceed the two keys), and once the first signature verifies
the loop reads `Signatures[1]`, past the end of the list. -/
theorem verifyMultisignature_indexes_past_signatures :
    verifyMultisignature (fun _ => .ok []) (fun (_ : Unit) _ _ => true)
        ⟨1, [.single (), .single ()]⟩ ⟨some ⟨2, [0xC0]⟩, [.single ⟨0⟩ []]⟩ =
      panicWith (indexOutOfRange 1 1) := by
  rw [verifyMultisignature_of_checks _ _ (by decide) (by decide) (by decide)
    (numTrueBitsBefore_eq _ (by decide) _) (by decide),
    verifySigners_single _ _ (by decide) (getIndex_natCast _ (by decide) 0) rfl rfl rfl rfl]
  exact verifySigners_missing _ _ (by decide) (getIndex_natCast _ (by decide) 1) (by decide)

/-- `ExtraBitsStored = 16` over one byte: `Count` is 16, the size checks pass
for sixteen keys, and `NumTrueBitsBefore(16)` reads `Elems[1]` at bit 8. -/
theorem verifyMultisignature_reads_past_elems :
    Panicked (verifyMultisignature (fun _ => .ok []) (fun (_ : Unit) _ _ => true)
      ⟨1, List.replicate 16 (.single ())⟩ ⟨some ⟨16, [0]⟩, [.single ⟨0⟩ []]⟩) := by
  have reads : Panicked (numTrueBitsBefore (some ⟨16, [0]⟩) 16) :=
    numTrueBitsBefore_panicked _ _ 8 (by decide) ⟨indexOutOfRange 1 1, by decide⟩
  rw [verifyMultisignature, if_neg (by decide), if_neg (by decide)]
  exact panicked_bind reads

end CoreSdk.Crypto.Multisig
