import CoreSdk.Tx.Signing
import CoreSdk.Data.Packing

/-!
# Assembling a multisignature

A transcription of `common/crypto/types/multisig/multisignature.go`: `NewMultisig`,
`AddSignature`, `getIndex`, `AddSignatureFromPubKey` and `AddSignatureV2`.
`AddSignature` updates a `*MultiSignatureData` in place; here it takes the value
and returns the value the pointer holds afterwards (a panic midway loses it).

The signatures of a multisignature are meant to be those of the set bits of its
bit array, in key order: `Packing.dense` of the map from a key index to the
signature most recently added there. `Packed` says so, together with the facts
about the bit array this needs. `AddSignature` at an index below the array's
`Count` keeps the layout: a set bit has its signature overwritten at its rank,
a clear bit is set and its signature inserted at its rank (either by the
append at the end or by the `copy` that shifts the tail). At an index at or
past `Count`, `GetIndex` and `SetIndex` do nothing and the signature is
appended anyway, which leaves one more signature than set bits.
-/

namespace CoreSdk.Crypto.Multisignature

open Go CoreSdk.Tx Packing
open CompactBitArray hiding getIndex

set_option autoImplicit false

/-- `NewMultisig`, for the number of keys of a multisig key, which its callers
pass. At a negative `n` Go's `make` panics with `makeslice: cap out of range`,
where this value is the empty multisignature. -/
def newMultisig (n : Int) : MultiSignatureData :=
  { bitArray := newCompactBitArray n, signatures := [] }

/-- `AddSignature`. -/
def addSignature (mSig : MultiSignatureData) (sig : SignatureData) (index : Int) :
    Result MultiSignatureData := do
  let newSigIndex ← numTrueBitsBefore mSig.bitArray index
  let present ← CompactBitArray.getIndex mSig.bitArray index
  -- Signature already exists, just replace the value there
  if present then
    let signatures ← assign mSig.signatures newSigIndex sig
    return { mSig with signatures }
  let (bitArray, _) ← setIndex mSig.bitArray index true
  -- Optimization if the index is the greatest index
  if newSigIndex = mSig.signatures.length then
    return { bitArray, signatures := mSig.signatures ++ [sig] }
  -- Expand by a dummy element, move the elements from the index on over by
  -- one, then place the new signature in that gap
  let grown := mSig.signatures ++ [.single SignMode.signModeUnspecified []]
  let shifted ← copyWithin grown ((newSigIndex : Int) + 1) newSigIndex
  let signatures ← assign shifted newSigIndex sig
  return { bitArray, signatures }

/-- Signatures added one after another, each at its key index. -/
def addSignatures (mSig : MultiSignatureData) (additions : List (SignatureData × Int)) :
    Result MultiSignatureData :=
  additions.foldlM (fun mSig addition => addSignature mSig addition.1 addition.2) mSig

/-- The signature most recently added at `index`. -/
def lastAdded (additions : List (SignatureData × Int)) (index : Int) : Option SignatureData :=
  ((additions.filter (fun addition => addition.2 = index)).getLast?).map Prod.fst

/-- The layout of a multisignature over `n` keys whose key `i` has signed
`assigned i`: the bit array has `n` bits, the set bits are the signed keys, and
the signatures are theirs in key order. -/
structure Packed (n : Nat) (assigned : Nat → Option SignatureData)
    (mSig : MultiSignatureData) : Prop where
  wellSized : ∀ b ∈ mSig.bitArray, b.WellSized
  count_eq : count mSig.bitArray = n
  bit_eq : ∀ i < n, bit mSig.bitArray i = (assigned i).isSome
  signatures_eq : mSig.signatures = dense assigned n

namespace Packed

variable {n : Nat} {assigned : Nat → Option SignatureData} {mSig : MultiSignatureData}

theorem trueBitsBefore_eq (packed : Packed n assigned mSig) {j : Nat} (le : j ≤ n) :
    trueBitsBefore mSig.bitArray j = rank assigned j :=
  List.countP_congr (fun k member => by
    rw [packed.bit_eq k (by have := List.mem_range.mp member; omega)])

theorem numTrueBitsBefore_eq (packed : Packed n assigned mSig) {j : Nat} (le : j ≤ n) :
    numTrueBitsBefore mSig.bitArray j = .ok (rank assigned j) := by
  rw [CompactBitArray.numTrueBitsBefore_eq _ packed.wellSized, Int.toNat_natCast,
    packed.trueBitsBefore_eq le]

theorem getIndex_eq (packed : Packed n assigned mSig) {i : Nat} (below : i < n) :
    CompactBitArray.getIndex mSig.bitArray i = .ok (assigned i).isSome := by
  rw [getIndex_natCast _ packed.wellSized, packed.bit_eq i below]

/-- With a key to sign, the bit array is there. -/
theorem exists_bitArray (packed : Packed n assigned mSig) {i : Nat} (below : i < n) :
    ∃ b, mSig.bitArray = some b ∧ b.WellSized ∧ (i : Int) < count (some b) := by
  cases bitArray : mSig.bitArray with
  | none =>
      have empty := packed.count_eq
      rw [bitArray] at empty
      simp only [count] at empty
      omega
  | some b =>
      have counted := packed.count_eq
      rw [bitArray] at counted
      exact ⟨b, rfl, packed.wellSized b bitArray, by omega⟩

end Packed

/-! ## One signature at a key below `Count` -/

section Add

variable {n : Nat} {assigned : Nat → Option SignatureData} {mSig : MultiSignatureData}

/-- A key that has signed: its signature is overwritten at its rank. -/
theorem addSignature_of_isSome (packed : Packed n assigned mSig) (sig : SignatureData) {i : Nat}
    (below : i < n) (defined : (assigned i).isSome) :
    addSignature mSig sig i =
      .ok { mSig with signatures := (dense assigned n).set (rank assigned i) sig } := by
  have inside : rank assigned i < (dense assigned n).length := by
    rw [length_dense]
    exact rank_lt_of_isSome assigned below defined
  simp only [addSignature, packed.numTrueBitsBefore_eq (Nat.le_of_lt below),
    packed.getIndex_eq below, defined, ok_bind, if_true, assign_natCast_of_lt _ _ _ inside,
    pure_eq_ok, packed.signatures_eq]

/-- A key that has not signed: its bit is set and its signature inserted at its rank. -/
theorem addSignature_of_none (packed : Packed n assigned mSig) (sig : SignatureData) {i : Nat}
    (below : i < n) (undefined : assigned i = none) :
    ∃ b, mSig.bitArray = some b ∧
      addSignature mSig sig i =
        .ok { bitArray := some (setBit b i),
              signatures := (dense assigned n).insertIdx (rank assigned i) sig } := by
  obtain ⟨b, bitArray, wellSized, inCount⟩ := packed.exists_bitArray below
  refine ⟨b, bitArray, ?_⟩
  have counted := packed.numTrueBitsBefore_eq (Nat.le_of_lt below)
  have present := packed.getIndex_eq below
  rw [bitArray] at counted present
  rw [undefined, Option.isSome_none] at present
  have ranked : rank assigned i ≤ (dense assigned n).length := by
    rw [length_dense]
    exact rank_mono assigned (Nat.le_of_lt below)
  simp only [addSignature, bitArray, counted, present, ok_bind, Bool.false_eq_true, if_false,
    setIndex_true b wellSized i inCount, packed.signatures_eq]
  by_cases last : rank assigned i = (dense assigned n).length
  · -- the new signer comes after every signer so far: `append`
    rw [if_pos last, pure_eq_ok, last, List.insertIdx_length_self]
  · -- a later key has signed: shift the tail by one and write the gap
    have inner : rank assigned i < (dense assigned n).length := by omega
    have doubled : rank assigned i < (List.take (rank assigned i + 1) (dense assigned n) ++
        List.drop (rank assigned i) (dense assigned n)).length := by
      simp only [List.length_append, List.length_take, List.length_drop]
      omega
    rw [if_neg last, copyWithin_shift _ _ _ inner, ok_bind,
      assign_natCast_of_lt _ _ _ doubled, ok_bind, pure_eq_ok,
      set_shift_eq_insertIdx _ _ _ inner]

/-- One step of the assembly: an index below `Count` never panics and moves the
layout to the map updated at that index. -/
theorem addSignature_packed (packed : Packed n assigned mSig) (sig : SignatureData) {i : Nat}
    (below : i < n) :
    ∃ next, addSignature mSig sig i = .ok next ∧
      Packed n (Function.update assigned i (some sig)) next := by
  by_cases defined : (assigned i).isSome
  · refine ⟨_, addSignature_of_isSome packed sig below defined, ?_⟩
    refine ⟨packed.wellSized, packed.count_eq, ?_, ?_⟩
    · -- the bit of a key that had signed stays set
      intro j inside
      rw [packed.bit_eq j inside, isSome_update]
      by_cases same : j = i
      · subst same
        simp [defined]
      · simp [same]
    · exact (dense_update_of_isSome assigned i sig below defined).symm
  · have undefined : assigned i = none := Option.not_isSome_iff_eq_none.mp defined
    obtain ⟨b, bitArray, added⟩ := addSignature_of_none packed sig below undefined
    have wellSized := packed.wellSized b bitArray
    have counted : count (some b) = n := bitArray ▸ packed.count_eq
    refine ⟨_, added, ?_, ?_, ?_, ?_⟩
    · intro b' member
      rw [Option.mem_def, Option.some.injEq] at member
      subst member
      exact wellSized_setBit b wellSized i
    · rw [count_setBit, counted]
    · intro j inside
      rw [bit_setBit b wellSized i j (by omega), ← bitArray, packed.bit_eq j inside, isSome_update]
    · exact (dense_update_of_none assigned i sig below undefined).symm

/-- An index at or past `Count` sets no bit, but the signature is appended all
the same: the multisignature then holds one more signature than set bits. -/
theorem addSignature_of_count_le (packed : Packed n assigned mSig) (sig : SignatureData)
    {i : Nat} (past : n ≤ i) :
    addSignature mSig sig i = .ok { mSig with signatures := mSig.signatures ++ [sig] } := by
  have counted : numTrueBitsBefore mSig.bitArray i = .ok mSig.signatures.length := by
    rw [CompactBitArray.numTrueBitsBefore_eq _ packed.wellSized, Int.toNat_natCast,
      trueBitsBefore_of_count_le _ (Int.le_of_eq packed.count_eq) past,
      packed.trueBitsBefore_eq (Nat.le_refl n), packed.signatures_eq, length_dense]
  have outside : count mSig.bitArray ≤ (i : Int) := by
    rw [packed.count_eq]
    exact_mod_cast past
  simp only [addSignature, counted, getIndex_of_count_le _ _ outside,
    setIndex_of_count_le _ _ _ outside, ok_bind, Bool.false_eq_true, if_false, if_true,
    pure_eq_ok]

end Add

/-! ## Runs of `AddSignature` -/

theorem lastAdded_nil (index : Int) : lastAdded [] index = none := rfl

/-- The latest addition at an index is a later one if there is any, else this one. -/
theorem lastAdded_cons (addition : SignatureData × Int) (additions : List (SignatureData × Int))
    (index : Int) :
    lastAdded (addition :: additions) index =
      (lastAdded additions index).or (if addition.2 = index then some addition.1 else none) := by
  unfold lastAdded
  by_cases same : addition.2 = index
  · rw [List.filter_cons_of_pos (by simpa using same), List.getLast?_cons, if_pos same]
    cases (additions.filter (fun addition => addition.2 = index)).getLast? <;> rfl
  · rw [List.filter_cons_of_neg (by simpa using same), if_neg same, Option.or_none]

/-- What key `i` holds after one more addition followed by `additions`. -/
theorem lastAdded_cons_or (sig : SignatureData) (k : Nat)
    (additions : List (SignatureData × Int)) (assigned : Nat → Option SignatureData) (i : Nat) :
    (lastAdded ((sig, (k : Int)) :: additions) i).or (assigned i) =
      (lastAdded additions i).or (Function.update assigned k (some sig) i) := by
  rw [lastAdded_cons]
  cases lastAdded additions i with
  | some _ => rfl
  | none =>
      by_cases same : i = k
      · subst same
        simp
      · have differ : ¬(k : Int) = i := by omega
        simp [differ, Function.update_of_ne same]

/-- Any run of additions below `Count` returns, and keeps the layout: each key
holds the signature last added there, or else what it held before. -/
theorem addSignatures_packed {n : Nat} {assigned : Nat → Option SignatureData}
    {mSig : MultiSignatureData} (packed : Packed n assigned mSig)
    (additions : List (SignatureData × Int))
    (inRange : ∀ addition ∈ additions, 0 ≤ addition.2 ∧ addition.2 < n) :
    ∃ last, addSignatures mSig additions = .ok last ∧
      Packed n (fun i => (lastAdded additions i).or (assigned i)) last := by
  induction additions generalizing assigned mSig with
  | nil => exact ⟨mSig, rfl, by simpa [lastAdded_nil] using packed⟩
  | cons addition additions induction =>
      obtain ⟨sig, index⟩ := addition
      obtain ⟨nonneg, below⟩ := inRange (sig, index) List.mem_cons_self
      obtain ⟨k, rfl⟩ : ∃ k : Nat, index = k := ⟨index.toNat, (Int.toNat_of_nonneg nonneg).symm⟩
      obtain ⟨next, step, nextPacked⟩ := addSignature_packed packed sig (show k < n by omega)
      obtain ⟨last, run, lastPacked⟩ := induction nextPacked
        (fun addition member => inRange addition (List.mem_cons_of_mem _ member))
      refine ⟨last, ?_, ?_⟩
      · simp only [addSignatures, List.foldlM_cons, step, ok_bind]
        exact run
      · rw [funext (lastAdded_cons_or sig k additions assigned)]
        exact lastPacked

theorem packed_newMultisig (n : Int) : Packed n.toNat (fun _ => none) (newMultisig n) := by
  rcases Int.lt_or_le 0 n with positive | nonpositive
  · obtain ⟨m, rfl⟩ : ∃ m : Nat, n = m := ⟨n.toNat, (Int.toNat_of_nonneg (by omega)).symm⟩
    have positive : 0 < m := by exact_mod_cast positive
    refine ⟨newCompactBitArray_wellSized m positive, ?_,
      fun j _ => bit_newCompactBitArray m j, by simp [newMultisig, dense]⟩
    rw [newMultisig, count_newCompactBitArray m positive, Int.toNat_natCast]
  · have empty : newCompactBitArray n = none := by simp [newCompactBitArray, nonpositive]
    have zero : n.toNat = 0 := by omega
    refine ⟨by simp [newMultisig, empty], ?_, fun j below => by omega, by simp [newMultisig, dense]⟩
    rw [newMultisig, empty, zero]
    rfl

theorem addSignatures_newMultisig_packed (n : Int) (additions : List (SignatureData × Int))
    (inRange : ∀ addition ∈ additions, 0 ≤ addition.2 ∧ addition.2 < n) :
    ∃ mSig, addSignatures (newMultisig n) additions = .ok mSig ∧
      numTrueBitsBefore mSig.bitArray (count mSig.bitArray) = .ok mSig.signatures.length ∧
      ∀ i : Nat, (i : Int) < n →
        CompactBitArray.getIndex mSig.bitArray i = .ok (lastAdded additions i).isSome ∧
        ∀ sig, lastAdded additions i = some sig →
          ∃ r, numTrueBitsBefore mSig.bitArray i = .ok r ∧ mSig.signatures[r]? = some sig := by
  obtain ⟨mSig, run, packed⟩ := addSignatures_packed (packed_newMultisig n) additions
    (fun addition member => by have := inRange addition member; omega)
  simp only [Option.or_none] at packed
  refine ⟨mSig, run, ?_, fun i below => ⟨packed.getIndex_eq (by omega), fun sig found => ?_⟩⟩
  · rw [packed.count_eq, packed.numTrueBitsBefore_eq (Nat.le_refl _), packed.signatures_eq,
      length_dense]
  · refine ⟨_, packed.numTrueBitsBefore_eq (by omega), ?_⟩
    rw [packed.signatures_eq]
    exact getElem?_dense_rank _ (by omega) found

theorem addSignatures_newMultisig_packed_two_keys :
    (∀ addition ∈ [(SignatureData.single ⟨1⟩ [7], (1 : Int)), (.single ⟨1⟩ [9], 0)],
        0 ≤ addition.2 ∧ addition.2 < 2) ∧
    ∃ mSig, addSignatures (newMultisig 2) [(.single ⟨1⟩ [7], 1), (.single ⟨1⟩ [9], 0)] =
        .ok mSig ∧
      numTrueBitsBefore mSig.bitArray (count mSig.bitArray) = .ok mSig.signatures.length ∧
      ∀ i : Nat, (i : Int) < 2 →
        CompactBitArray.getIndex mSig.bitArray i =
            .ok (lastAdded [(.single ⟨1⟩ [7], 1), (.single ⟨1⟩ [9], 0)] i).isSome ∧
        ∀ sig, lastAdded [(.single ⟨1⟩ [7], 1), (.single ⟨1⟩ [9], 0)] i = some sig →
          ∃ r, numTrueBitsBefore mSig.bitArray i = .ok r ∧ mSig.signatures[r]? = some sig := by
  have inRange : ∀ addition ∈ [(SignatureData.single ⟨1⟩ [7], (1 : Int)), (.single ⟨1⟩ [9], 0)],
      0 ≤ addition.2 ∧ addition.2 < 2 := by decide
  exact ⟨inRange, addSignatures_newMultisig_packed 2 _ inRange⟩

/-! ## Adding by public key -/

section PubKeys

variable {Key : Type} (equals : Key → Key → Bool) (formatKey : Key → String)
  (keyBytes : Key → Bytes)

/-- `getIndex`: the position of the first key that `pk.Equals`, or `-1`. -/
def getIndex (pk : Key) (keys : List Key) : Int :=
  match keys.findIdx? (fun key => equals pk key) with
  | some i => i
  | none => -1

/-- `%v` of a `crypto.PubKey` interface value. -/
def formatPubKey : Option Key → String
  | none => "<nil>"
  | some key => formatKey key

/-- `%v` of a `[]crypto.PubKey`; nil prints as the empty slice. -/
def formatPubKeys : Option (List Key) → String
  | none => "[]"
  | some keys => "[" ++ " ".intercalate (keys.map formatKey) ++ "]"

/-- `AddSignatureFromPubKey`. The nil checks see the nil pointer and nil
interface values as `none` and `SignatureData.nil`. -/
def addSignatureFromPubKey (mSig : Option MultiSignatureData) (sig : SignatureData)
    (pubkey : Option Key) (keys : Option (List Key)) : Result MultiSignatureData :=
  match mSig, sig, pubkey, keys with
  | none, _, _, _ => fail "value of mSig is nil <nil>"
  | some _, .nil, _, _ => fail "value of sig is nil <nil>"
  | some mSig, sig, some pubkey, some keys =>
      let index := getIndex equals pubkey keys
      if index = -1 then
        let keysStr := keys.map (fun k => formatHex (keyBytes k))
        fail ("provided key " ++ formatHex (keyBytes pubkey) ++ " doesn't exist in pubkeys: \n" ++
          "\n".intercalate keysStr)
      else addSignature mSig sig index
  | some _, _, pubkey, keys =>
      fail ("pubkey or keys can't be nil " ++ formatPubKey formatKey pubkey ++ " " ++
        formatPubKeys formatKey keys)

/-- `AddSignatureV2`. -/
def addSignatureV2 (mSig : Option MultiSignatureData) (sig : SignatureV2 Key)
    (keys : Option (List Key)) : Result MultiSignatureData :=
  addSignatureFromPubKey equals formatKey keyBytes mSig sig.data sig.pubKey keys

theorem getIndex_eq_neg_one_iff (pk : Key) (keys : List Key) :
    getIndex equals pk keys = -1 ↔ ∀ key ∈ keys, equals pk key = false := by
  unfold getIndex
  cases found : keys.findIdx? (fun key => equals pk key) with
  | none => simpa using List.findIdx?_eq_none_iff.mp found
  | some k =>
      have : ¬∀ key ∈ keys, equals pk key = false := by
        intro none
        rw [List.findIdx?_eq_none_iff.mpr none] at found
        cases found
      simp only [this, iff_false]
      omega

/-- A key that is found is found at a position of `keys` that it equals. -/
theorem getIndex_of_ne (pk : Key) (keys : List Key) (found : getIndex equals pk keys ≠ -1) :
    ∃ k : Nat, getIndex equals pk keys = k ∧ ∃ inside : k < keys.length, equals pk keys[k] = true := by
  unfold getIndex at found ⊢
  cases position : keys.findIdx? (fun key => equals pk key) with
  | none => simp [position] at found
  | some k =>
      obtain ⟨inside, equal, _⟩ := List.findIdx?_eq_some_iff_getElem.mp position
      exact ⟨k, rfl, inside, equal⟩

section NonNil

variable (mSig : MultiSignatureData) (sig : SignatureData) (notNil : sig ≠ .nil)
  (pubkey : Key) (keys : List Key)

include notNil in
theorem addSignatureFromPubKey_of_found (found : getIndex equals pubkey keys ≠ -1) :
    addSignatureFromPubKey equals formatKey keyBytes (some mSig) sig (some pubkey) (some keys) =
      addSignature mSig sig (getIndex equals pubkey keys) := by
  cases sig with
  | nil => exact absurd rfl notNil
  | single => simp [addSignatureFromPubKey, found]
  | multi => simp [addSignatureFromPubKey, found]

include notNil in
theorem addSignatureFromPubKey_of_missing (missing : ∀ key ∈ keys, equals pubkey key = false) :
    addSignatureFromPubKey equals formatKey keyBytes (some mSig) sig (some pubkey) (some keys) =
      fail ("provided key " ++ formatHex (keyBytes pubkey) ++ " doesn't exist in pubkeys: \n" ++
        "\n".intercalate (keys.map (fun k => formatHex (keyBytes k)))) := by
  have notFound := (getIndex_eq_neg_one_iff equals pubkey keys).mpr missing
  cases sig with
  | nil => exact absurd rfl notNil
  | single => simp [addSignatureFromPubKey, notFound]
  | multi => simp [addSignatureFromPubKey, notFound]

include notNil in
/-- Adding by public key over at most `Count` keys: the call never panics; it
either reports the missing key or signs the first equal key, keeping the layout. -/
theorem addSignatureFromPubKey_packed {n : Nat} {assigned : Nat → Option SignatureData}
    (packed : Packed n assigned mSig) (fits : keys.length ≤ n) :
    (∃ k : Nat, ∃ inside : k < keys.length, equals pubkey keys[k] = true ∧
      ∃ next, addSignatureFromPubKey equals formatKey keyBytes (some mSig) sig (some pubkey)
          (some keys) = .ok next ∧ Packed n (Function.update assigned k (some sig)) next) ∨
    ((∀ key ∈ keys, equals pubkey key = false) ∧ ∃ message,
      addSignatureFromPubKey equals formatKey keyBytes (some mSig) sig (some pubkey)
        (some keys) = fail message) := by
  by_cases found : getIndex equals pubkey keys = -1
  · exact .inr ⟨(getIndex_eq_neg_one_iff equals pubkey keys).mp found, _,
      addSignatureFromPubKey_of_missing equals formatKey keyBytes mSig sig notNil pubkey keys
        ((getIndex_eq_neg_one_iff equals pubkey keys).mp found)⟩
  · obtain ⟨k, position, inside, equal⟩ := getIndex_of_ne equals pubkey keys found
    obtain ⟨next, added, nextPacked⟩ := addSignature_packed packed sig (show k < n by omega)
    refine .inl ⟨k, inside, equal, next, ?_, nextPacked⟩
    rw [addSignatureFromPubKey_of_found equals formatKey keyBytes mSig sig notNil pubkey keys found,
      position, added]

end NonNil

end PubKeys

end CoreSdk.Crypto.Multisignature
