import CoreSdk.Go.Runtime
import CoreSdk.Go.Big

/-!
# Signing with the SDK's key types

`Sign` and `VerifySignature` of three key types of `common/crypto/keys`:
`secp256k1` built without cgo (over btcec), `sm2` (over tjfoc/gmsm) and
`eth_secp256k1` (over go-ethereum's `crypto`). The curve libraries and the
hash functions are parameters; each library comes with the guarantee that the
signatures it makes verify over the digest they were made for.

What the wrappers add is the choice of digest and the byte layout of a
signature. `secp256k1` signs and verifies the SHA-256 of the message, `sm2` the
message itself, both the same on either side, and both write `R || S` with each
coordinate padded to 32 bytes, which `VerifySignature` reads back. The
`secp256k1` `VerifySignature` also rejects an `S` above `N/2`, so of `R || S`
and `R || (N - S)` at most one verifies (`verifySignature_not_malleable`).
`eth_secp256k1` signs the Keccak-256 of the message unless the message already
has the length of a digest, and signs such a message as it is, while its
`VerifySignature` hashes every message: a 32-byte message is signed over one
digest and verified over another.
-/

namespace CoreSdk.Crypto.Keys

open Go Go.Big

set_option autoImplicit false

/-- An ECDSA or SM2 signature `(R, S)`. -/
structure Signature where
  r : Nat
  s : Nat
  deriving DecidableEq, Repr

/-- The 64 bytes `R || S`, each coordinate padded with zeros on the left to 32
bytes: `serializeSig`, and the same code inline in `sm2`'s `Sign`. A coordinate
of more than 32 bytes makes the slice expression panic. -/
def serializeCoordinates (r s : Nat) : Result (List UInt8) := do
  let rBytes := bytes r
  let sBytes := bytes s
  let sigBytes := List.replicate 64 (0 : UInt8)
  -- 0 pad the byte arrays from the left if they aren't big enough.
  let sigBytes ← copyIntoSlice sigBytes (32 - rBytes.length) 32 rBytes
  copyIntoSlice sigBytes (64 - sBytes.length) 64 sBytes

/-- A coordinate below `2^256`, padded to its 32 bytes. -/
def padded (x : Nat) : List UInt8 := List.replicate (32 - (bytes x).length) 0 ++ bytes x

theorem length_padded (x : Nat) (small : x < 2 ^ 256) : (padded x).length = 32 := by
  have fits := (length_bytes_le_iff x 32).mpr (by simpa using small)
  simp only [padded, List.length_append, List.length_replicate]
  omega

theorem setBytes_padded (x : Nat) : setBytes (padded x) = x := by
  rw [padded, setBytes_zeros_append, setBytes_bytes]

/-- Thirty-two bytes are the padded bytes of their value. -/
theorem padded_setBytes (bs : List UInt8) (thirtyTwo : bs.length = 32) : padded (setBytes bs) = bs := by
  have small : setBytes bs < 2 ^ 256 :=
    calc setBytes bs < 256 ^ bs.length := setBytes_lt bs
      _ = 2 ^ 256 := by rw [thirtyTwo]; decide
  apply setBytes_inj
  · rw [length_padded _ small, thirtyTwo]
  · exact setBytes_padded _

theorem serializeCoordinates_eq (r s : Nat) (smallR : r < 2 ^ 256) (smallS : s < 2 ^ 256) :
    serializeCoordinates r s = .ok (padded r ++ padded s) := by
  have fitsR := (length_bytes_le_iff r 32).mpr (by simpa using smallR)
  have fitsS := (length_bytes_le_iff s 32).mpr (by simpa using smallS)
  have halfR := length_padded r smallR
  -- after `R` is copied, the buffer is `R` padded, then 32 zeros
  have first := copyIntoSlice_natCast (List.replicate 64 (0 : UInt8)) (bytes r) (32 - (bytes r).length) 32
    (by omega) (by rw [List.length_replicate]; omega) (by omega)
  have buffer : (List.replicate 64 (0 : UInt8)).take (32 - (bytes r).length) ++ bytes r ++
      (List.replicate 64 (0 : UInt8)).drop 32 = padded r ++ List.replicate 32 0 := by
    rw [List.take_replicate, List.drop_replicate, padded, show min (32 - (bytes r).length) 64 =
      32 - (bytes r).length by omega]
  have second := copyIntoSlice_natCast (padded r ++ List.replicate 32 0) (bytes s) (64 - (bytes s).length) 64
    (by omega) (by rw [List.length_append, halfR, List.length_replicate]) (by omega)
  have result : (padded r ++ List.replicate 32 (0 : UInt8)).take (64 - (bytes s).length) ++ bytes s ++
      (padded r ++ List.replicate 32 0).drop 64 = padded r ++ padded s := by
    rw [List.take_append, List.take_of_length_le (by omega), halfR, List.take_replicate,
      List.drop_eq_nil_of_le (by rw [List.length_append, halfR, List.length_replicate]), List.append_nil,
      show min (64 - (bytes s).length - 32) 32 = 32 - (bytes s).length by omega, padded, padded,
      List.append_assoc]
  simp only [Nat.cast_ofNat] at first second
  rw [buffer] at first
  rw [result] at second
  have lowR : ((32 : Int) - (bytes r).length) = ((32 - (bytes r).length : Nat) : Int) := by omega
  have lowS : ((64 : Int) - (bytes s).length) = ((64 - (bytes s).length : Nat) : Int) := by omega
  simp only [serializeCoordinates, lowR, lowS]
  rw [first, ok_bind, second]

/-- The two halves of `R || S` give back the coordinates. -/
theorem setBytes_halves (r s : Nat) (smallR : r < 2 ^ 256) :
    setBytes ((padded r ++ padded s).take 32) = r ∧ setBytes ((padded r ++ padded s).drop 32) = s := by
  have half := length_padded r smallR
  constructor
  · rw [List.take_append_of_le_length (by omega), List.take_of_length_le (by omega), setBytes_padded]
  · rw [List.drop_append_of_le_length (by omega), List.drop_of_length_le (by omega), List.nil_append,
      setBytes_padded]

/-- A value below `2^256` copied into the last bytes of 32 zeros. -/
theorem copyIntoSlice_padded (x : Nat) (small : x < 2 ^ 256) :
    copyIntoSlice (List.replicate 32 (0 : UInt8)) ((32 : Int) - (bytes x).length) 32 (bytes x) =
      .ok (padded x) := by
  have fits := (length_bytes_le_iff x 32).mpr (by simpa using small)
  have low : ((32 : Int) - (bytes x).length) = ((32 - (bytes x).length : Nat) : Int) := by omega
  have copied := copyIntoSlice_natCast (List.replicate 32 (0 : UInt8)) (bytes x) (32 - (bytes x).length) 32
    (by omega) (by rw [List.length_replicate]) (by omega)
  rw [low, show ((32 : Int)) = ((32 : Nat) : Int) from rfl, copied, List.take_replicate, List.drop_replicate,
    show min (32 - (bytes x).length) 32 = 32 - (bytes x).length by omega, Nat.sub_self, List.replicate_zero,
    List.append_nil, padded]

/-- `PrivKey.UnmarshalAmino` of both key types, for a key of `privKeySize` bytes. -/
def unmarshalPrivKey (privKeySize : Nat) (bz : List UInt8) : Result (List UInt8) :=
  if bz.length ≠ privKeySize then fail "invalid privkey size" else pure bz

theorem unmarshalPrivKey_of_length {privKeySize : Nat} {bz : List UInt8} (exact : bz.length = privKeySize) :
    unmarshalPrivKey privKeySize bz = .ok bz := by
  rw [unmarshalPrivKey, if_neg (not_not.mpr exact)]
  rfl

theorem unmarshalPrivKey_of_ne {privKeySize : Nat} {bz : List UInt8} (other : bz.length ≠ privKeySize) :
    unmarshalPrivKey privKeySize bz = fail "invalid privkey size" := by
  rw [unmarshalPrivKey, if_pos other]

/-- `k = (c mod (n − 1)) + 1` is a scalar in `[1, n − 1]`. -/
theorem reduced_bounds (c n : Nat) (two : 2 ≤ n) : 1 ≤ c % (n - 1) + 1 ∧ c % (n - 1) + 1 < n := by
  have below := Nat.mod_lt c (show 0 < n - 1 by omega)
  omega

/-! ## `secp256k1` without cgo -/

namespace Secp256k1

/-- The order `N` of the group of secp256k1. -/
def curveOrder : Nat := 0xFFFFFFFFFFFFFFFFFFFFFFFFFFFFFFFEBAAEDCE6AF48A03BBFD25E8CD0364141

/-- `secp256k1halfN`: `N >> 1`, the largest `S` of a signature in lower-S form. -/
def halfN : Nat := curveOrder / 2

/-- The part of btcec that the key type calls. -/
structure Btcec (PublicKey : Type) where
  /-- `PrivKeyFromBytes(S256(), key)`, then `Sign(hash)` of the private key. -/
  sign : List UInt8 → List UInt8 → Except String Signature
  /-- `PrivKeyFromBytes(S256(), key)`, then `SerializeCompressed()` of the public key. -/
  serializeCompressed : List UInt8 → List UInt8
  /-- `ParsePubKey(key, S256())`. -/
  parsePubKey : List UInt8 → Option PublicKey
  /-- `(*Signature).Verify(hash, pub)`. -/
  verify : Signature → List UInt8 → PublicKey → Bool

variable {PublicKey : Type} (btcec : Btcec PublicKey) (sha256 : List UInt8 → List UInt8)

/-- `PrivKey.PubKey`. -/
def pubKey (key : List UInt8) : List UInt8 := btcec.serializeCompressed key

/-- `serializeSig`. -/
def serializeSig (sig : Signature) : Result (List UInt8) := serializeCoordinates sig.r sig.s

/-- `signatureFromBytes`; its caller has checked that there are 64 bytes. -/
def signatureFromBytes (sigStr : List UInt8) : Signature :=
  ⟨setBytes (sigStr.take 32), setBytes ((sigStr.drop 32).take 32)⟩

/-- `PrivKey.Sign`: SHA-256 of the message, signed by btcec. -/
def sign (key msg : List UInt8) : Result (List UInt8) :=
  match btcec.sign key (sha256 msg) with
  | .error err => fail err
  | .ok sig => serializeSig sig

/-- `PubKey.VerifySignature`. -/
def verifySignature (pubKey msg sigStr : List UInt8) : Bool :=
  if sigStr.length ≠ 64 then false
  else
    match btcec.parsePubKey pubKey with
    | none => false
    | some pub =>
        let signature := signatureFromBytes sigStr
        -- Reject malleable signatures. libsecp256k1 does this check but btcec doesn't.
        if signature.s > halfN then false
        else btcec.verify signature (sha256 msg) pub

/-- What btcec guarantees for a valid private key: its public key parses, and
every hash is signed in lower-S form by a signature that verifies over it. -/
def Btcec.Correct (key : List UInt8) : Prop :=
  ∃ pub, btcec.parsePubKey (btcec.serializeCompressed key) = some pub ∧
    ∀ hash, ∃ sig, btcec.sign key hash = .ok sig ∧ sig.r < curveOrder ∧ sig.s ≤ halfN ∧
      btcec.verify sig hash pub = true

/-- btcec's `Sign` returns signatures in lower-S form (`signRFC6979` replaces
an `S` above `N/2` by `N - S`), with `R` below `N`. -/
def Btcec.LowerS : Prop :=
  ∀ key hash sig, btcec.sign key hash = .ok sig → sig.r < curveOrder ∧ sig.s ≤ halfN

theorem curveOrder_lt : curveOrder < 2 ^ 256 := by decide

theorem curveOrder_eq_halfN : curveOrder = 2 * halfN + 1 := by decide

theorem signatureFromBytes_padded (r s : Nat) (smallR : r < 2 ^ 256) (smallS : s < 2 ^ 256) :
    signatureFromBytes (padded r ++ padded s) = ⟨r, s⟩ := by
  obtain ⟨readR, readS⟩ := setBytes_halves r s smallR
  have dropTake : ((padded r ++ padded s).drop 32).take 32 = (padded r ++ padded s).drop 32 :=
    List.take_of_length_le (by simp [length_padded r smallR, length_padded s smallS])
  rw [signatureFromBytes, dropTake, readR, readS]

/-- Below `2^256` both coordinates are written in 64 bytes and read back. -/
theorem signatureFromBytes_serializeSig_of_lt (sig : Signature) (smallR : sig.r < 2 ^ 256)
    (smallS : sig.s < 2 ^ 256) :
    ∃ sigBytes, serializeSig sig = .ok sigBytes ∧ sigBytes.length = 64 ∧ signatureFromBytes sigBytes = sig := by
  refine ⟨padded sig.r ++ padded sig.s, serializeCoordinates_eq sig.r sig.s smallR smallS, ?_,
    signatureFromBytes_padded sig.r sig.s smallR smallS⟩
  rw [List.length_append, length_padded _ smallR, length_padded _ smallS]

/-- Each half of 64 bytes reads as a coordinate below `2^256`. -/
theorem signatureFromBytes_lt (sigStr : List UInt8) :
    (signatureFromBytes sigStr).r < 2 ^ 256 ∧ (signatureFromBytes sigStr).s < 2 ^ 256 := by
  have bound : ∀ bs : List UInt8, bs.length ≤ 32 → setBytes bs < 2 ^ 256 := by
    intro bs short
    calc setBytes bs < 256 ^ bs.length := setBytes_lt bs
      _ ≤ 256 ^ 32 := Nat.pow_le_pow_right (by decide) short
      _ = 2 ^ 256 := by decide
  exact ⟨bound _ (List.length_take_le _ _), bound _ (List.length_take_le _ _)⟩

/-- A signature whose `S` is above `N/2` is rejected before btcec is asked. -/
theorem verifySignature_of_halfN_lt (pubKey msg sigStr : List UInt8) (high : halfN < (signatureFromBytes sigStr).s) :
    verifySignature btcec sha256 pubKey msg sigStr = false := by
  rw [verifySignature]
  split_ifs
  · rfl
  · cases btcec.parsePubKey pubKey with
    | none => rfl
    | some pub => simp only [gt_iff_lt, if_pos high]

/-- Every 64 bytes are written back as they were read. -/
theorem serializeSig_signatureFromBytes (sigStr : List UInt8) (sixtyFour : sigStr.length = 64) :
    serializeSig (signatureFromBytes sigStr) = .ok sigStr := by
  obtain ⟨smallR, smallS⟩ := signatureFromBytes_lt sigStr
  have front : (sigStr.take 32).length = 32 := by simp [sixtyFour]
  have back : (sigStr.drop 32).length = 32 := by simp [sixtyFour]
  rw [serializeSig, serializeCoordinates_eq _ _ smallR smallS]
  simp only [signatureFromBytes]
  rw [List.take_of_length_le (Nat.le_of_eq back), padded_setBytes _ front, padded_setBytes _ back,
    List.take_append_drop]

/-- A message signed with btcec is verified under the key's public key, and the
64-byte layout of a signature is read and written back both ways. -/
theorem verifySignature_sign_secp256k1 (key msg : List UInt8) (correct : btcec.Correct key) :
    (∃ sig, sign btcec sha256 key msg = .ok sig ∧
      verifySignature btcec sha256 (pubKey btcec key) msg sig = true) ∧
    (∀ sig : Signature, sig.r < curveOrder → sig.s < curveOrder →
      ∃ sigBytes, serializeSig sig = .ok sigBytes ∧ sigBytes.length = 64 ∧ signatureFromBytes sigBytes = sig) ∧
    ∀ sigStr : List UInt8, sigStr.length = 64 → serializeSig (signatureFromBytes sigStr) = .ok sigStr := by
  have order := curveOrder_lt
  refine ⟨?_, fun sig lowR lowS => signatureFromBytes_serializeSig_of_lt sig (by omega) (by omega),
    serializeSig_signatureFromBytes⟩
  obtain ⟨pub, parsed, signs⟩ := correct
  obtain ⟨sig, signed, smallR, lowS, verified⟩ := signs (sha256 msg)
  have smallS : sig.s < 2 ^ 256 := by
    have : halfN < curveOrder := by decide
    have := curveOrder_lt
    omega
  have serialized := serializeCoordinates_eq sig.r sig.s (by have := curveOrder_lt; omega) smallS
  refine ⟨padded sig.r ++ padded sig.s, by rw [sign, signed]; exact serialized, ?_⟩
  have length : (padded sig.r ++ padded sig.s).length = 64 := by
    rw [List.length_append, length_padded _ (by have := curveOrder_lt; omega), length_padded _ smallS]
  -- `signatureFromBytes` reads back the signature btcec made
  have read : signatureFromBytes (padded sig.r ++ padded sig.s) = sig :=
    signatureFromBytes_padded sig.r sig.s (by have := curveOrder_lt; omega) smallS
  rw [verifySignature, if_neg (by simp [length]), pubKey, parsed]
  simp only [read, gt_iff_lt, if_neg (Nat.not_lt.mpr lowS), verified]

theorem verifySignature_not_malleable :
    (∀ (pubKey msg sigStr : List UInt8), ∃ flipped,
      serializeSig ⟨(signatureFromBytes sigStr).r, ((curveOrder : Int) - (signatureFromBytes sigStr).s).natAbs⟩ =
        .ok flipped ∧
      !(verifySignature btcec sha256 pubKey msg sigStr && verifySignature btcec sha256 pubKey msg flipped)) ∧
    (btcec.LowerS → ∀ key msg sigBytes, sign btcec sha256 key msg = .ok sigBytes →
      sigBytes.length = 64 ∧ (signatureFromBytes sigBytes).s ≤ halfN) ∧
    (∀ sig : Signature, sig.r < 2 ^ 256 → sig.s < 2 ^ 256 →
      ∃ sigBytes, serializeSig sig = .ok sigBytes ∧ signatureFromBytes sigBytes = sig) := by
  refine ⟨fun pubKey msg sigStr => ?_, fun lowerS key msg sigBytes signed => ?_, fun sig smallR smallS => ?_⟩
  · obtain ⟨smallR, smallS⟩ := signatureFromBytes_lt sigStr
    have order := curveOrder_lt
    have half := curveOrder_eq_halfN
    have smallFlipped : ((curveOrder : Int) - (signatureFromBytes sigStr).s).natAbs < 2 ^ 256 := by omega
    obtain ⟨flipped, serialized, -, readBack⟩ := signatureFromBytes_serializeSig_of_lt
      ⟨(signatureFromBytes sigStr).r, ((curveOrder : Int) - (signatureFromBytes sigStr).s).natAbs⟩ smallR
      smallFlipped
    refine ⟨flipped, serialized, ?_⟩
    -- `S` and `N - S` are not both at most `N/2`, since `N` is odd
    by_cases low : (signatureFromBytes sigStr).s ≤ halfN
    · have high : halfN < (signatureFromBytes flipped).s := by
        rw [readBack]
        show halfN < ((curveOrder : Int) - (signatureFromBytes sigStr).s).natAbs
        omega
      rw [verifySignature_of_halfN_lt btcec sha256 pubKey msg flipped high, Bool.and_false, Bool.not_false]
    · rw [verifySignature_of_halfN_lt btcec sha256 pubKey msg sigStr (by omega), Bool.false_and, Bool.not_false]
  · rw [sign] at signed
    cases made : btcec.sign key (sha256 msg) with
    | error err =>
      rw [made] at signed
      exact absurd signed (fail_ne_ok _ _)
    | ok sig =>
      rw [made] at signed
      dsimp only at signed
      obtain ⟨smallR, lowS⟩ := lowerS key _ sig made
      have order := curveOrder_lt
      have half := curveOrder_eq_halfN
      obtain ⟨written, serialized, length, readBack⟩ := signatureFromBytes_serializeSig_of_lt sig (by omega) (by omega)
      rw [serialized] at signed
      cases signed
      exact ⟨length, by rw [readBack]; exact lowS⟩
  · obtain ⟨sigBytes, serialized, -, readBack⟩ := signatureFromBytes_serializeSig_of_lt sig smallR smallS
    exact ⟨sigBytes, serialized, readBack⟩

/-- `S` or `N - S`, whichever is at most `N/2`, as `signRFC6979` returns it. -/
def normalizeS (s : Nat) : Nat := if halfN < s then curveOrder - s else s

theorem normalizeS_le (s : Nat) (below : s < curveOrder) : normalizeS s ≤ halfN := by
  have half := curveOrder_eq_halfN
  unfold normalizeS
  split_ifs <;> omega

/-- A btcec that signs a hash with the key and the hash reduced mod `N`, in
lower-S form, and whose `Verify` recomputes that `S` from the hash. -/
def toyBtcec : Btcec Unit where
  sign key hash := .ok ⟨setBytes key % curveOrder, normalizeS (setBytes hash % curveOrder)⟩
  serializeCompressed key := key
  parsePubKey _ := some ()
  verify sig hash _ := decide (sig.s = normalizeS (setBytes hash % curveOrder))

theorem toyBtcec_lowerS : toyBtcec.LowerS := by
  intro key hash sig signed
  simp only [toyBtcec, Except.ok.injEq] at signed
  subst signed
  have positive : 0 < curveOrder := by decide
  exact ⟨Nat.mod_lt _ positive, normalizeS_le _ (Nat.mod_lt _ positive)⟩

theorem toyBtcec_correct (key : List UInt8) : toyBtcec.Correct key := by
  have positive : 0 < curveOrder := by decide
  exact ⟨(), rfl, fun hash => ⟨_, rfl, Nat.mod_lt _ positive, normalizeS_le _ (Nat.mod_lt _ positive),
    decide_eq_true rfl⟩⟩

/-- The hash `0xFF00…00`, above `N/2`: the toy btcec flips its `S`. -/
def highHash : List UInt8 := 255 :: List.replicate 31 0

theorem verifySignature_sign_secp256k1_toy :
    ∃ sig, sign toyBtcec id [7] highHash = .ok sig ∧
      verifySignature toyBtcec id (pubKey toyBtcec [7]) highHash sig = true :=
  (verifySignature_sign_secp256k1 toyBtcec id [7] highHash (toyBtcec_correct [7])).1

theorem verifySignature_not_malleable_toy :
    toyBtcec.LowerS ∧ ∃ sigBytes, sign toyBtcec id [7] highHash = .ok sigBytes ∧
      sigBytes.length = 64 ∧ (signatureFromBytes sigBytes).s ≤ halfN := by
  have positive : 0 < curveOrder := by decide
  have signed : sign toyBtcec id [7] highHash =
      .ok (padded (setBytes [7] % curveOrder) ++ padded (normalizeS (setBytes highHash % curveOrder))) :=
    serializeCoordinates_eq (setBytes [7] % curveOrder) (normalizeS (setBytes highHash % curveOrder))
      (lt_trans (Nat.mod_lt _ positive) curveOrder_lt)
      (lt_of_le_of_lt (normalizeS_le _ (Nat.mod_lt _ positive)) (by decide))
  exact ⟨toyBtcec_lowerS, _, signed,
    (verifySignature_not_malleable toyBtcec id).2.1 toyBtcec_lowerS [7] highHash _ signed⟩

/-- `PrivKeySize`. -/
def privKeySize : Nat := 32

/-- `PrivKey.UnmarshalAmino`. -/
def unmarshalAmino : List UInt8 → Result (List UInt8) := unmarshalPrivKey privKeySize

/-- `GenPrivKeyFromSecret`: `c = sha256(secret)`, `k = (c mod (n − 1)) + 1`. -/
def genPrivKeyFromSecret (secret : List UInt8) : Result (List UInt8) := do
  let secHash := sha256 secret
  let fe := setBytes secHash % (curveOrder - 1) + 1
  let feB := bytes fe
  let privKey32 := List.replicate privKeySize (0 : UInt8)
  -- copy feB over to fixed 32 byte privKey32 and pad (if necessary)
  copyIntoSlice privKey32 (32 - feB.length) 32 feB

/-- The key is the reduced hash, padded to its 32 bytes. -/
theorem genPrivKeyFromSecret_eq (secret : List UInt8) :
    genPrivKeyFromSecret sha256 secret = .ok (padded (setBytes (sha256 secret) % (curveOrder - 1) + 1)) := by
  have small : setBytes (sha256 secret) % (curveOrder - 1) + 1 < 2 ^ 256 :=
    lt_trans (reduced_bounds _ curveOrder (by decide)).2 curveOrder_lt
  simp only [genPrivKeyFromSecret, privKeySize]
  exact copyIntoSlice_padded _ small

end Secp256k1

/-! ## `sm2` -/

namespace Sm2

/-- The part of tjfoc/gmsm that the key type calls, with the private key as
its scalar `D`. -/
structure Gmsm (PublicKey : Type) where
  /-- `ScalarBaseMult(k.Bytes())`: the public point of a scalar. -/
  scalarBaseMult : Nat → PublicKey
  /-- `Sm2Sign(priv, msg, nil, rand.Reader)`, for one draw of the random source. -/
  sm2Sign : Nat → List UInt8 → Except String (Nat × Nat)
  /-- `Compress`. -/
  compress : PublicKey → List UInt8
  /-- `Decompress`. -/
  decompress : List UInt8 → PublicKey
  /-- `Sm2Verify(pub, msg, nil, r, s)`. -/
  sm2Verify : PublicKey → List UInt8 → Nat → Nat → Bool

variable {PublicKey : Type} (gmsm : Gmsm PublicKey)

/-- `PrivKey.GetPrivateKey`: the scalar of the first 32 bytes of the key. -/
def getPrivateKey (key : List UInt8) : Result Nat := do
  let d ← slice key 0 32
  pure (setBytes d)

/-- `PrivKey.PubKey`: the compressed point, copied into 33 bytes. -/
def pubKey (key : List UInt8) : Result (List UInt8) := do
  let priv ← getPrivateKey key
  let compPubkey := gmsm.compress (gmsm.scalarBaseMult priv)
  copyIntoSlice (List.replicate 33 0) 0 33 compPubkey

/-- `PrivKey.Sign`: the message itself, signed by SM2. -/
def sign (key msg : List UInt8) : Result (List UInt8) := do
  let priv ← getPrivateKey key
  match gmsm.sm2Sign priv msg with
  | .error err => fail err
  | .ok (r, s) => serializeCoordinates r s

/-- `PubKey.VerifySignature`. -/
def verifySignature (pubKey msg sig : List UInt8) : Bool :=
  if sig.length ≠ 64 then false
  else
    let publicKey := gmsm.decompress pubKey
    let r := setBytes (sig.take 32)
    let s := setBytes (sig.drop 32)
    gmsm.sm2Verify publicKey msg r s

/-- What gmsm guarantees: a compressed point has 33 bytes and decompresses to
itself, and every signature `Sm2Sign` returns has coordinates below `2^256` and
verifies over the message under the signer's point. -/
structure Gmsm.Correct : Prop where
  compressLength : ∀ point, (gmsm.compress point).length = 33
  decompressCompress : ∀ point, gmsm.decompress (gmsm.compress point) = point
  signs : ∀ d msg r s, gmsm.sm2Sign d msg = .ok (r, s) →
    r < 2 ^ 256 ∧ s < 2 ^ 256 ∧ gmsm.sm2Verify (gmsm.scalarBaseMult d) msg r s = true

theorem getPrivateKey_of_length (key : List UInt8) (long : 32 ≤ key.length) :
    getPrivateKey key = .ok (setBytes (key.take 32)) := by
  rw [getPrivateKey, show ((0 : Int)) = ((0 : Nat) : Int) from rfl,
    show ((32 : Int)) = ((32 : Nat) : Int) from rfl, slice_natCast key 0 32 (by omega) long]
  rfl

/-- Whenever `sm2`'s `Sign` returns, its public key verifies the signature. -/
theorem verifySignature_sign_sm2 (correct : gmsm.Correct) (key msg sig : List UInt8)
    (long : 32 ≤ key.length) (signed : sign gmsm key msg = .ok sig) :
    ∃ pub, pubKey gmsm key = .ok pub ∧ pub = gmsm.compress (gmsm.scalarBaseMult (setBytes (key.take 32))) ∧
      pub.length = 33 ∧ verifySignature gmsm pub msg sig = true := by
  have priv := getPrivateKey_of_length key long
  rw [sign, priv, ok_bind] at signed
  split at signed
  · exact absurd signed (fail_ne_ok _ _)
  · rename_i r s made
    obtain ⟨smallR, smallS, verified⟩ := correct.signs _ msg r s made
    rw [serializeCoordinates_eq r s smallR smallS, Except.ok.injEq] at signed
    subst signed
    refine ⟨gmsm.compress (gmsm.scalarBaseMult (setBytes (key.take 32))), ?_, rfl, correct.compressLength _, ?_⟩
    · -- the 33 bytes of the point fill the buffer
      rw [pubKey, priv, ok_bind]
      rw [show ((0 : Int)) = ((0 : Nat) : Int) from rfl, show ((33 : Int)) = ((33 : Nat) : Int) from rfl,
        copyIntoSlice_natCast _ _ 0 33 (by omega) (by simp) (by rw [correct.compressLength])]
      simp
    · have length : (padded r ++ padded s).length = 64 := by
        rw [List.length_append, length_padded r smallR, length_padded s smallS]
      obtain ⟨readR, readS⟩ := setBytes_halves r s smallR
      rw [verifySignature, if_neg (by simp [length])]
      simp only [readR, readS, correct.decompressCompress, verified]

/-- A gmsm with a single point that signs every message with `(1, 1)` and
accepts exactly that signature. -/
def constantGmsm : Gmsm Unit :=
  ⟨fun _ => (), fun _ _ => .ok (1, 1), fun _ => List.replicate 33 0, fun _ => (),
    fun _ _ r s => decide (r = 1 ∧ s = 1)⟩

theorem constantGmsm_correct : constantGmsm.Correct where
  compressLength _ := List.length_replicate
  decompressCompress _ := rfl
  signs d msg r s signed := by
    have same : (1, 1) = (r, s) := Except.ok.inj signed
    obtain ⟨rfl, rfl⟩ := Prod.mk.inj same
    exact ⟨by decide, by decide, rfl⟩

theorem verifySignature_sign_sm2_constant :
    ∃ pub, pubKey constantGmsm (List.replicate 32 7) = .ok pub ∧
      pub = constantGmsm.compress (constantGmsm.scalarBaseMult (setBytes ((List.replicate 32 7).take 32))) ∧
      pub.length = 33 ∧ verifySignature constantGmsm pub [1, 2, 3] (padded 1 ++ padded 1) = true := by
  have signed : sign constantGmsm (List.replicate 32 7) [1, 2, 3] = .ok (padded 1 ++ padded 1) := by
    rw [sign, getPrivateKey_of_length _ (by simp), ok_bind]
    exact serializeCoordinates_eq 1 1 (by decide) (by decide)
  exact verifySignature_sign_sm2 constantGmsm constantGmsm_correct _ _ _ (by simp) signed

/-- The order `N` of the curve `P256Sm2`. -/
def curveOrder : Nat := 0xFFFFFFFEFFFFFFFFFFFFFFFFFFFFFFFF7203DF6B21C6052B53BBF40939D54123

/-- `PrivKeySize`. -/
def privKeySize : Nat := 32

/-- `PrivKey.UnmarshalAmino`. -/
def unmarshalAmino : List UInt8 → Result (List UInt8) := unmarshalPrivKey privKeySize

/-- `GenPrivKeyFromSecret`: the key is `k.Bytes()` of `k = (c mod (n − 1)) + 1`,
with no padding to `PrivKeySize`. -/
def genPrivKeyFromSecret (sha256 : List UInt8 → List UInt8) (secret : List UInt8) : List UInt8 :=
  let secHash := sha256 secret
  let k := setBytes secHash % (curveOrder - 1) + 1
  bytes k

/-- The key is shorter than 32 bytes exactly when its top byte would be zero. -/
theorem length_genPrivKeyFromSecret_lt_iff (sha256 : List UInt8 → List UInt8) (secret : List UInt8) :
    (genPrivKeyFromSecret sha256 secret).length < privKeySize ↔
      setBytes (sha256 secret) % (curveOrder - 1) + 1 < 2 ^ 248 := by
  rw [genPrivKeyFromSecret, privKeySize, Nat.lt_succ_iff, length_bytes_le_iff]
  norm_num

/-- Slicing `Key[:32]` out of a shorter key panics. -/
theorem getPrivateKey_of_short {key : List UInt8} (short : key.length < 32) : Panicked (getPrivateKey key) := by
  apply panicked_bind
  rw [slice, if_neg (by omega), if_pos (by omega)]
  exact ⟨_, rfl⟩

theorem pubKey_of_short {key : List UInt8} (short : key.length < 32) : Panicked (pubKey gmsm key) :=
  panicked_bind (getPrivateKey_of_short short)

theorem sign_of_short {key : List UInt8} (short : key.length < 32) (msg : List UInt8) :
    Panicked (sign gmsm key msg) :=
  panicked_bind (getPrivateKey_of_short short)

end Sm2

/-! ## Keys from a secret -/

/-- Both key types reduce the hash to `k = (c mod (n − 1)) + 1`. secp256k1 pads
`k` to its 32 bytes, which `UnmarshalAmino` accepts. sm2 keeps `k.Bytes()`,
which is shorter than 32 bytes when `k < 2^248`; such a key is refused by
`UnmarshalAmino`, and `GetPrivateKey`, `PubKey` and `Sign` panic on it. -/
theorem genPrivKeyFromSecret_key_size (sha256 : List UInt8 → List UInt8) (secret : List UInt8) :
    (∃ key, Secp256k1.genPrivKeyFromSecret sha256 secret = .ok key ∧ key.length = Secp256k1.privKeySize ∧
      setBytes key = setBytes (sha256 secret) % (Secp256k1.curveOrder - 1) + 1 ∧
      1 ≤ setBytes key ∧ setBytes key < Secp256k1.curveOrder ∧ Secp256k1.unmarshalAmino key = .ok key) ∧
    (setBytes (Sm2.genPrivKeyFromSecret sha256 secret) = setBytes (sha256 secret) % (Sm2.curveOrder - 1) + 1 ∧
      ((Sm2.genPrivKeyFromSecret sha256 secret).length < Sm2.privKeySize ↔
        setBytes (sha256 secret) % (Sm2.curveOrder - 1) + 1 < 2 ^ 248) ∧
      ((Sm2.genPrivKeyFromSecret sha256 secret).length < Sm2.privKeySize →
        Sm2.unmarshalAmino (Sm2.genPrivKeyFromSecret sha256 secret) = fail "invalid privkey size" ∧
        Panicked (Sm2.getPrivateKey (Sm2.genPrivKeyFromSecret sha256 secret)) ∧
        ∀ {PublicKey : Type} (gmsm : Sm2.Gmsm PublicKey) (msg : List UInt8),
          Panicked (Sm2.pubKey gmsm (Sm2.genPrivKeyFromSecret sha256 secret)) ∧
          Panicked (Sm2.sign gmsm (Sm2.genPrivKeyFromSecret sha256 secret) msg))) := by
  have bounds := reduced_bounds (setBytes (sha256 secret)) Secp256k1.curveOrder (by decide)
  have length := length_padded _ (lt_trans bounds.2 Secp256k1.curveOrder_lt)
  refine ⟨⟨_, Secp256k1.genPrivKeyFromSecret_eq sha256 secret, length, setBytes_padded _, ?_, ?_,
    unmarshalPrivKey_of_length length⟩, ?_⟩
  · rw [setBytes_padded]
    exact bounds.1
  · rw [setBytes_padded]
    exact bounds.2
  · refine ⟨setBytes_bytes _, Sm2.length_genPrivKeyFromSecret_lt_iff sha256 secret, fun short => ?_⟩
    have short32 : (Sm2.genPrivKeyFromSecret sha256 secret).length < 32 := short
    exact ⟨unmarshalPrivKey_of_ne (Nat.ne_of_lt short), Sm2.getPrivateKey_of_short short32,
      fun gmsm msg => ⟨Sm2.pubKey_of_short gmsm short32, Sm2.sign_of_short gmsm short32 msg⟩⟩

/-- A hash of zeros reduces to `k = 1`, whose sm2 key is the single byte `1`. -/
theorem genPrivKeyFromSecret_key_size_zero_hash :
    Sm2.genPrivKeyFromSecret (fun _ => List.replicate 32 0) [] = [1] ∧
      Sm2.unmarshalAmino [1] = fail "invalid privkey size" ∧ Panicked (Sm2.getPrivateKey [1]) := by
  have key : Sm2.genPrivKeyFromSecret (fun _ => List.replicate 32 0) [] = [1] := by
    rw [Sm2.genPrivKeyFromSecret, show setBytes (List.replicate 32 0) = 0 by decide, Nat.zero_mod]
    simp [bytes]
  obtain ⟨-, -, refused⟩ := (genPrivKeyFromSecret_key_size (fun _ => List.replicate 32 0) []).2
  rw [key] at refused
  obtain ⟨unmarshalled, panicked, -⟩ := refused (by decide)
  exact ⟨key, unmarshalled, panicked⟩

/-! ## `eth_secp256k1` -/

namespace EthSecp256k1

/-- `crypto.DigestLength`. -/
def digestLength : Nat := 32

/-- `crypto.SignatureLength`: `R || S || V`. -/
def signatureLength : Nat := 65

/-- The part of go-ethereum's `crypto` package that the key type calls. -/
structure GoEthereum (PrivateKey : Type) where
  /-- `crypto.ToECDSA`. -/
  toECDSA : List UInt8 → Except String PrivateKey
  /-- `crypto.CompressPubkey` of the key's public key. -/
  compressPubkey : PrivateKey → List UInt8
  /-- `crypto.Sign(digestHash, key)`. -/
  sign : List UInt8 → PrivateKey → Except String (List UInt8)
  /-- `crypto.VerifySignature(pubkey, digestHash, signature)`. -/
  verifySignature : List UInt8 → List UInt8 → List UInt8 → Bool
  /-- `crypto.Keccak256Hash(data).Bytes()`. -/
  keccak256 : List UInt8 → List UInt8

variable {PrivateKey : Type} (geth : GoEthereum PrivateKey)

/-- `PrivKey.PubKey`; a key that `ToECDSA` refuses has no public key. -/
def pubKey (key : List UInt8) : Option (List UInt8) :=
  match geth.toECDSA key with
  | .ok ecdsaPrivKey => some (geth.compressPubkey ecdsaPrivKey)
  | .error _ => none

/-- `PrivKey.Sign`. -/
def sign (key digestBz : List UInt8) : Result (List UInt8) :=
  let digestBz := if digestBz.length ≠ digestLength then geth.keccak256 digestBz else digestBz
  match geth.toECDSA key with
  | .error err => fail err
  | .ok ecdsaPrivKey =>
      match geth.sign digestBz ecdsaPrivKey with
      | .error err => fail err
      | .ok sig => pure sig

/-- `PubKey.VerifySignature`. -/
def verifySignature (pubKey msg sig : List UInt8) : Bool :=
  -- remove recovery ID (V) if contained in the signature
  let sig := if sig.length = signatureLength then sig.take (sig.length - 1) else sig
  geth.verifySignature pubKey (geth.keccak256 msg) sig

/-- What go-ethereum guarantees for a private key it accepts: Keccak-256 has
digest length, and every digest is signed by 65 bytes whose `R || S` verifies
over it. -/
structure GoEthereum.Correct (ecdsaPrivKey : PrivateKey) : Prop where
  keccakLength : ∀ data, (geth.keccak256 data).length = digestLength
  signs : ∀ digest, digest.length = digestLength → ∃ sig, geth.sign digest ecdsaPrivKey = .ok sig ∧
    sig.length = signatureLength ∧
    geth.verifySignature (geth.compressPubkey ecdsaPrivKey) digest (sig.take 64) = true

variable {geth}

/-- `Sign` signs the Keccak-256 of a message that is not 32 bytes long, and the
message itself otherwise. -/
theorem sign_eq (key msg : List UInt8) (ecdsaPrivKey : PrivateKey)
    (accepted : geth.toECDSA key = .ok ecdsaPrivKey) :
    sign geth key msg = match geth.sign (if msg.length ≠ digestLength then geth.keccak256 msg else msg)
        ecdsaPrivKey with
      | .error err => fail err
      | .ok sig => pure sig := by
  simp only [sign, accepted]

/-- Verification strips the recovery byte of a 65-byte signature. -/
theorem verifySignature_of_length (pubKey msg sig : List UInt8) (full : sig.length = signatureLength) :
    verifySignature geth pubKey msg sig = geth.verifySignature pubKey (geth.keccak256 msg) (sig.take 64) := by
  simp only [verifySignature, full, if_true]
  rfl

/-- A 32-byte message is signed as it is, and verified over its Keccak-256: its
own public key rejects the signature unless go-ethereum accepts a signature made
over the message as one over its hash. -/
theorem verifySignature_sign_digest_length_fails (key msg : List UInt8) (ecdsaPrivKey : PrivateKey)
    (accepted : geth.toECDSA key = .ok ecdsaPrivKey) (correct : geth.Correct ecdsaPrivKey)
    (digestSized : msg.length = digestLength)
    (rejects : ∀ sig, geth.sign msg ecdsaPrivKey = .ok sig →
      geth.verifySignature (geth.compressPubkey ecdsaPrivKey) (geth.keccak256 msg) (sig.take 64) = false) :
    ∃ sig pub, sign geth key msg = .ok sig ∧ geth.sign msg ecdsaPrivKey = .ok sig ∧
      pubKey geth key = some pub ∧ verifySignature geth pub msg sig = false := by
  obtain ⟨sig, signed, full, _⟩ := correct.signs msg digestSized
  refine ⟨sig, geth.compressPubkey ecdsaPrivKey, ?_, signed, by simp [pubKey, accepted], ?_⟩
  · rw [sign_eq key msg ecdsaPrivKey accepted, if_neg (not_not.mpr digestSized), signed]
    rfl
  · rw [verifySignature_of_length _ _ _ full]
    exact rejects sig signed

/-- A go-ethereum whose signature of a 32-byte digest is the digest followed by
33 zeros, and whose Keccak-256 is constant. -/
def constantGeth : GoEthereum Unit where
  toECDSA _ := .ok ()
  compressPubkey _ := []
  sign digest _ :=
    if digest.length = digestLength then .ok (digest ++ List.replicate 33 0)
    else .error "hash is required to be exactly 32 bytes"
  verifySignature _ digest sig := decide (sig = digest ++ List.replicate 32 0)
  keccak256 _ := List.replicate 32 0

theorem take_constantSignature (digest : List UInt8) (sized : digest.length = digestLength) :
    (digest ++ List.replicate 33 (0 : UInt8)).take 64 = digest ++ List.replicate 32 0 := by
  rw [List.take_append, List.take_of_length_le (by rw [sized]; decide), sized, List.take_replicate]
  rfl

theorem constantGeth_correct : constantGeth.Correct () where
  keccakLength _ := List.length_replicate
  signs digest sized := ⟨digest ++ List.replicate 33 0, by simp [constantGeth, sized],
    by simp [sized, signatureLength, digestLength],
    by
      show decide ((digest ++ List.replicate 33 0).take 64 = digest ++ List.replicate 32 0) = true
      rw [take_constantSignature digest sized]
      exact decide_eq_true rfl⟩

theorem verifySignature_sign_digest_length_fails_constant :
    ∃ sig pub, sign constantGeth [] (List.replicate 32 1) = .ok sig ∧
      constantGeth.sign (List.replicate 32 1) () = .ok sig ∧ pubKey constantGeth [] = some pub ∧
      verifySignature constantGeth pub (List.replicate 32 1) sig = false :=
  verifySignature_sign_digest_length_fails [] _ () rfl constantGeth_correct (by simp [digestLength])
    (fun sig signed => by
      have made : sig = List.replicate 32 1 ++ List.replicate 33 0 := (Except.ok.inj signed).symm
      rw [made, take_constantSignature _ (by simp [digestLength])]
      decide)

end EthSecp256k1

end CoreSdk.Crypto.Keys
