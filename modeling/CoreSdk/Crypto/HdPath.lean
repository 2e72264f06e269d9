import CoreSdk.Crypto.Keys
import CoreSdk.Go.Strings
import CoreSdk.Go.Strconv

/-!
# BIP 32 derivation along a path

`DerivePrivateKeyForPath` (`common/crypto/hd/hdpath.go`) splits the path at
`/`, drops a leading `m` and derives one child key a component: an apostrophe
at the end asks for a hardened step, and the rest is parsed as a `uint32`.
`derivePrivateKey` then sets bit 31 of the index of a hardened step.

The last character of a component is read with `part[len(part)-1:]` before
anything checks that the component is not empty, so `m/` and `m//0` panic. A
hardened value is parsed over the whole `uint32` range before bit 31 is set, so
`v'` and `(v + 2^31)'` take the same step and derive the same key
(`derivePrivateKeyForPath_panics_and_aliases`). When no component is empty the
derivation returns an error or a key of 32 bytes
(`derivePrivateKeyForPath_of_nonempty`).

HMAC-SHA512, the compressed public key of btcec, `strconv.Quote` and
`unicode.IsSpace` past Latin-1 are parameters; the order of secp256k1 is
`Keys.Secp256k1.curveOrder`.
-/

namespace CoreSdk.Crypto.Hd

open Go Go.Big Go.Strings Go.Strconv

set_option autoImplicit false

/-- `[32]byte`. -/
structure Bytes32 where
  bytes : List UInt8
  length_eq : bytes.length = 32

/-- `copy(dst[:], src)` into a zeroed `[32]byte`. -/
def Bytes32.copyOf (src : List UInt8) : Bytes32 where
  bytes := src.take 32 ++ List.replicate (32 - src.length) 0
  length_eq := by
    simp only [List.length_append, List.length_take, List.length_replicate]
    omega

section Derivation

variable (hmacSHA512 : List UInt8 → List UInt8 → List UInt8) (serializeCompressed : List UInt8 → List UInt8)
  (whiteSpace : Char → Bool) (quote : String → String)

/-- `i64`: the two halves of the HMAC-SHA512 of `data` under `key`. -/
def i64 (key data : List UInt8) : Bytes32 × Bytes32 :=
  let mac := hmacSHA512 key data
  (Bytes32.copyOf (mac.take 32), Bytes32.copyOf (mac.drop 32))

/-- `ComputeMastersFromSeed`. -/
def computeMastersFromSeed (seed : List UInt8) : Bytes32 × Bytes32 :=
  i64 hmacSHA512 "Bitcoin seed".toUTF8.toList seed

/-- `uint32ToBytes`, big-endian. -/
def uint32ToBytes (i : UInt32) : List UInt8 :=
  [(i >>> 24).toUInt8, (i >>> 16).toUInt8, (i >>> 8).toUInt8, i.toUInt8]

/-- `addScalars`: the sum modulo the group order, copied to the end of 32 zero bytes. -/
def addScalars (a b : List UInt8) : Bytes32 :=
  let sInt := (setBytes a + setBytes b) % Keys.Secp256k1.curveOrder
  ⟨Keys.padded sInt, Keys.length_padded _ (lt_trans (Nat.mod_lt _ (by decide)) Keys.Secp256k1.curveOrder_lt)⟩

/-- `derivePrivateKey`. -/
def derivePrivateKey (privKeyBytes chainCode : Bytes32) (index : UInt32) (harden : Bool) : Bytes32 × Bytes32 :=
  let (index, data) :=
    if harden then (index ||| 0x80000000, [0] ++ privKeyBytes.bytes)
    else (index, serializeCompressed privKeyBytes.bytes)
  let data := data ++ uint32ToBytes index
  let (data2, chainCode2) := i64 hmacSHA512 chainCode.bytes data
  (addScalars privKeyBytes.bytes data2.bytes, chainCode2)

/-- The body of the loop of `DerivePrivateKeyForPath`, on one component. -/
def deriveStep (keys : Bytes32 × Bytes32) (part : String) : Result (Bytes32 × Bytes32) := do
  let (data, chainCode) := keys
  -- do we have an apostrophe?
  let last ← sliceFrom part.toList ((part.length : Int) - 1)
  let harden := String.ofList last = "\x27"
  let part := if harden then String.ofList part.toList.dropLast else part
  let (idx, err) := parseUint part 32
  match err with
  | some err => fail ("invalid BIP 32 path: " ++ err.error quote)
  | none => pure (derivePrivateKey hmacSHA512 serializeCompressed data chainCode idx.toUInt32 harden)

/-- `DerivePrivateKeyForPath`. -/
def derivePrivateKeyForPath (privKeyBytes chainCode : Bytes32) (path : String) : Result (List UInt8) := do
  let parts := split path '/'
  let first ← index parts 0
  if first = path then fail ("path \x27" ++ path ++ "\x27 doesn\x27t contain \x27/\x27 separators")
  else
    let parts := if trimSpace whiteSpace first = "m" then parts.drop 1 else parts
    let (data, _) ← parts.foldlM (deriveStep hmacSHA512 serializeCompressed quote) (privKeyBytes, chainCode)
    -- `copy` into `make([]byte, 32)`
    let derivedKey := data.bytes.take 32 ++ List.replicate (32 - data.bytes.length) 0
    let n := min 32 data.bytes.length
    if n ≠ 32 ∨ data.bytes.length ≠ 32 then
      fail ("expected a (secp256k1) key of length 32, got length: " ++ toString data.bytes.length)
    else pure derivedKey

/-- `secp256k1Algo.Derive`, with `bip39.NewSeedWithErrorChecking` as `newSeed`. -/
def derive (newSeed : String → String → Except String (List UInt8)) (mnemonic bip39Passphrase hdPath : String) :
    Result (List UInt8) :=
  match newSeed mnemonic bip39Passphrase with
  | .error err => fail err
  | .ok seed =>
    let (masterPriv, ch) := computeMastersFromSeed hmacSHA512 seed
    if hdPath.length = 0 then pure masterPriv.bytes
    else derivePrivateKeyForPath hmacSHA512 serializeCompressed whiteSpace quote masterPriv ch hdPath

end Derivation

section Spec

variable (hmacSHA512 : List UInt8 → List UInt8 → List UInt8) (serializeCompressed : List UInt8 → List UInt8)
  (whiteSpace : Char → Bool) (quote : String → String)

/-- An empty component panics at `part[len(part)-1:]`. -/
theorem deriveStep_empty (keys : Bytes32 × Bytes32) :
    Panicked (deriveStep hmacSHA512 serializeCompressed quote keys "") := by
  obtain ⟨data, chainCode⟩ := keys
  exact ⟨_, rfl⟩

/-- A component that is not empty returns a step or an error. -/
theorem deriveStep_not_panicked (keys : Bytes32 × Bytes32) {part : String} (nonempty : part ≠ "") :
    ¬Panicked (deriveStep hmacSHA512 serializeCompressed quote keys part) := by
  obtain ⟨data, chainCode⟩ := keys
  have positive : 0 < part.length := by
    rw [← String.length_toList]
    apply List.length_pos_of_ne_nil
    rwa [ne_eq, String.toList_eq_nil_iff]
  have sliced := sliceFrom_natCast_of_le part.toList (part.length - 1) (by rw [String.length_toList]; omega)
  rw [show ((part.length - 1 : Nat) : Int) = (part.length : Int) - 1 by omega] at sliced
  rw [deriveStep]
  simp only [sliced, ok_bind]
  split
  · exact not_panicked_fail _
  · exact not_panicked_ok _

/-- A hardened component `v'` with `v` a `uint32` steps with index `v`. -/
theorem deriveStep_hardened (keys : Bytes32 × Bytes32) (v : Nat) (fits : v < 2 ^ 32) :
    deriveStep hmacSHA512 serializeCompressed quote keys (String.ofList (Nat.toDigits 10 v) ++ "\x27") =
      .ok (derivePrivateKey hmacSHA512 serializeCompressed keys.1 keys.2 v.toUInt32 true) := by
  obtain ⟨data, chainCode⟩ := keys
  have chars : (String.ofList (Nat.toDigits 10 v) ++ "\x27").toList = Nat.toDigits 10 v ++ ['\x27'] := by
    rw [String.toList_append, String.toList_ofList]
    rfl
  have lastAt : ((String.ofList (Nat.toDigits 10 v) ++ "\x27").length : Int) - 1 = ((Nat.toDigits 10 v).length : Nat) := by
    rw [← String.length_toList, chars, List.length_append, List.length_singleton]
    omega
  have sliced := sliceFrom_append (Nat.toDigits 10 v) ['\x27']
  have dropped : String.ofList (Nat.toDigits 10 v ++ ['\x27']).dropLast = String.ofList (Nat.toDigits 10 v) := by
    rw [List.dropLast_concat]
  rw [deriveStep]
  simp only [chars, lastAt, sliced, ok_bind]
  rw [if_pos trivial, dropped, parseUint_toDigits v 32 (by omega) fits]
  rfl

/-- Bit 31 is set in a hardened index, so `v` and `v + 2^31` give one index. -/
theorem derivePrivateKey_hardened_alias (privKeyBytes chainCode : Bytes32) (v : Nat) (small : v < 2 ^ 31) :
    derivePrivateKey hmacSHA512 serializeCompressed privKeyBytes chainCode v.toUInt32 true =
      derivePrivateKey hmacSHA512 serializeCompressed privKeyBytes chainCode (v + 2 ^ 31).toUInt32 true := by
  have highBit : v + 2 ^ 31 = 2 ^ 31 ||| v := by
    have joined := Nat.two_pow_add_eq_or_of_lt small 1
    rw [Nat.mul_one] at joined
    rw [← joined, Nat.add_comm]
  have same : v.toUInt32 ||| 0x80000000 = (v + 2 ^ 31).toUInt32 ||| 0x80000000 := by
    apply UInt32.toNat_inj.mp
    simp only [UInt32.toNat_or, Nat.toUInt32, UInt32.toNat_ofNat', UInt32.reduceToNat]
    rw [Nat.mod_eq_of_lt (by omega), Nat.mod_eq_of_lt (by omega), highBit,
      show (2147483648 : Nat) = 2 ^ 31 by rfl, Nat.or_comm (2 ^ 31 ||| v) (2 ^ 31), ← Nat.or_assoc, Nat.or_self,
      Nat.or_comm]
  simp only [derivePrivateKey, if_true, same]

/-- A path of two pieces or more: the loop over its components, after a leading
`m`, and the key it ends with. -/
theorem derivePrivateKeyForPath_of_pieces (privKeyBytes chainCode : Bytes32) {path first second : String}
    {rest : List String} (pieces : split path '/' = first :: second :: rest) :
    derivePrivateKeyForPath hmacSHA512 serializeCompressed whiteSpace quote privKeyBytes chainCode path =
      ((if trimSpace whiteSpace first = "m" then second :: rest else first :: second :: rest).foldlM
        (deriveStep hmacSHA512 serializeCompressed quote) (privKeyBytes, chainCode)).map fun keys => keys.1.bytes := by
  have firstAt : index (first :: second :: rest) 0 = .ok first := rfl
  have shorter : first ≠ path := fun same => by
    have := length_lt_of_split pieces
    rw [same] at this
    exact lt_irrefl _ this
  rw [derivePrivateKeyForPath]
  simp only [pieces, firstAt, ok_bind, if_neg shorter]
  rw [show (if trimSpace whiteSpace first = "m" then (first :: second :: rest).drop 1 else first :: second :: rest) =
    (if trimSpace whiteSpace first = "m" then second :: rest else first :: second :: rest) by rfl]
  cases (if trimSpace whiteSpace first = "m" then second :: rest else first :: second :: rest).foldlM
      (deriveStep hmacSHA512 serializeCompressed quote) (privKeyBytes, chainCode) with
  | error fault => rfl
  | ok keys =>
    obtain ⟨data, chainCode'⟩ := keys
    -- the key is a `[32]byte`, so the copy takes all of it and the check passes
    have length := data.length_eq
    simp only [ok_bind, length, min_self, ne_eq, not_true_eq_false, or_self, reduceIte, Nat.sub_self,
      List.replicate_zero, List.append_nil, pure_eq_ok, Except.map]
    rw [List.take_of_length_le (by omega)]

/-- The path `m/part`, for a component without a separator, is the one step from the keys given. -/
theorem derivePrivateKeyForPath_single (privKeyBytes chainCode : Bytes32) {part : String}
    (noSep : '/' ∉ part.toList) :
    derivePrivateKeyForPath hmacSHA512 serializeCompressed whiteSpace quote privKeyBytes chainCode ("m/" ++ part) =
      (deriveStep hmacSHA512 serializeCompressed quote (privKeyBytes, chainCode) part).map fun keys => keys.1.bytes := by
  have joined : "m/" ++ part = String.ofList (['/'].intercalate (["m", part].map String.toList)) := by
    rw [← String.toList_inj, String.toList_ofList, String.toList_append, List.map_cons, List.map_cons, List.map_nil,
      List.intercalate_cons_cons, List.intercalate_singleton, show "m/".toList = "m".toList ++ ['/'] by rfl]
  have pieces : split ("m/" ++ part) '/' = ["m", part] := by
    rw [joined]
    apply split_intercalate _ _ (List.cons_ne_nil _ _)
    simp [noSep]
  have printable : ∀ c ∈ "m".toList, 33 ≤ c.toNat ∧ c.toNat ≤ 126 := by
    simp [show "m".toList = ['m'] by rfl]
  rw [derivePrivateKeyForPath_of_pieces hmacSHA512 serializeCompressed whiteSpace quote privKeyBytes chainCode pieces,
    if_pos (trimSpace_of_printable whiteSpace "m" printable)]
  simp only [List.foldlM_cons, List.foldlM_nil, bind_pure]

/-- `m/v'` for a `uint32` value `v` derives the hardened child of index `v`. -/
theorem derivePrivateKeyForPath_hardened (privKeyBytes chainCode : Bytes32) (v : Nat) (fits : v < 2 ^ 32) :
    derivePrivateKeyForPath hmacSHA512 serializeCompressed whiteSpace quote privKeyBytes chainCode
        ("m/" ++ toString v ++ "\x27") =
      .ok (derivePrivateKey hmacSHA512 serializeCompressed privKeyBytes chainCode v.toUInt32 true).1.bytes := by
  have digits : toString v = String.ofList (Nat.toDigits 10 v) := rfl
  have noSep : '/' ∉ (String.ofList (Nat.toDigits 10 v) ++ "\x27").toList := by
    rw [String.toList_append, String.toList_ofList, List.mem_append]
    rintro (digit | quoteMark)
    · exact absurd (isDigit_of_mem_toDigits digit) (by decide)
    · exact absurd quoteMark (by decide)
  rw [digits, String.append_assoc,
    derivePrivateKeyForPath_single hmacSHA512 serializeCompressed whiteSpace quote privKeyBytes chainCode noSep,
    deriveStep_hardened hmacSHA512 serializeCompressed quote _ v fits]
  rfl

theorem derivePrivateKeyForPath_panics_and_aliases (privKeyBytes chainCode : Bytes32) :
    (∀ (path first : String) (rest : List String), split path '/' = first :: "" :: rest →
      trimSpace whiteSpace first = "m" →
        Panicked (derivePrivateKeyForPath hmacSHA512 serializeCompressed whiteSpace quote privKeyBytes chainCode path)) ∧
    ∀ v : Nat, v < 2 ^ 31 →
      derivePrivateKeyForPath hmacSHA512 serializeCompressed whiteSpace quote privKeyBytes chainCode
          ("m/" ++ toString v ++ "\x27") =
        derivePrivateKeyForPath hmacSHA512 serializeCompressed whiteSpace quote privKeyBytes chainCode
          ("m/" ++ toString (v + 2 ^ 31) ++ "\x27") ∧
      ∃ key, derivePrivateKeyForPath hmacSHA512 serializeCompressed whiteSpace quote privKeyBytes chainCode
          ("m/" ++ toString v ++ "\x27") = .ok key := by
  constructor
  · intro path first rest pieces isM
    rw [derivePrivateKeyForPath_of_pieces hmacSHA512 serializeCompressed whiteSpace quote privKeyBytes chainCode pieces,
      if_pos isM, panicked_map_iff, List.foldlM_cons]
    exact panicked_bind (deriveStep_empty hmacSHA512 serializeCompressed quote _)
  · intro v small
    rw [derivePrivateKeyForPath_hardened hmacSHA512 serializeCompressed whiteSpace quote privKeyBytes chainCode v
        (by omega),
      derivePrivateKeyForPath_hardened hmacSHA512 serializeCompressed whiteSpace quote privKeyBytes chainCode (v + 2 ^ 31)
        (by omega),
      derivePrivateKey_hardened_alias hmacSHA512 serializeCompressed privKeyBytes chainCode v small]
    exact ⟨rfl, _, rfl⟩

theorem derivePrivateKeyForPath_panics_and_aliases_m_slash :
    Panicked (derivePrivateKeyForPath (fun key data => key ++ data) id (fun _ => false) id
        (Bytes32.copyOf []) (Bytes32.copyOf []) "m/") ∧
      derivePrivateKeyForPath (fun key data => key ++ data) id (fun _ => false) id (Bytes32.copyOf [])
          (Bytes32.copyOf []) ("m/" ++ toString 0 ++ "\x27") =
        derivePrivateKeyForPath (fun key data => key ++ data) id (fun _ => false) id (Bytes32.copyOf [])
          (Bytes32.copyOf []) ("m/" ++ toString (0 + 2 ^ 31) ++ "\x27") := by
  have panicsAndAliases := derivePrivateKeyForPath_panics_and_aliases (fun key data => key ++ data) id (fun _ => false) id
    (Bytes32.copyOf []) (Bytes32.copyOf [])
  exact ⟨panicsAndAliases.1 "m/" "m" [] (by decide) (by decide), (panicsAndAliases.2 0 (by decide)).1⟩

/-- The key the path loop ends with is a whole `[32]byte`. -/
theorem length_of_map_bytes {loop : Result (Bytes32 × Bytes32)} {key : List UInt8}
    (derived : loop.map (fun keys => keys.1.bytes) = .ok key) : key.length = 32 := by
  cases loop with
  | error fault => nomatch derived
  | ok keys =>
    cases derived
    exact keys.1.length_eq

/-- With no empty component the derivation returns an error or a key of 32 bytes. -/
theorem derivePrivateKeyForPath_of_nonempty (privKeyBytes chainCode : Bytes32) {path : String}
    (nonempty : ∀ part ∈ split path '/', part ≠ "") :
    ¬Panicked (derivePrivateKeyForPath hmacSHA512 serializeCompressed whiteSpace quote privKeyBytes chainCode path) ∧
      ∀ key, derivePrivateKeyForPath hmacSHA512 serializeCompressed whiteSpace quote privKeyBytes chainCode path =
        .ok key → key.length = 32 := by
  cases pieces : split path '/' with
  | nil =>
    rw [split, List.map_eq_nil_iff] at pieces
    exact absurd pieces (List.splitOn_ne_nil _ _)
  | cons first tail =>
    cases tail with
    | nil =>
      -- no separator: the path is rejected before the loop
      have rejected : derivePrivateKeyForPath hmacSHA512 serializeCompressed whiteSpace quote privKeyBytes chainCode
          path = fail ("path \x27" ++ path ++ "\x27 doesn\x27t contain \x27/\x27 separators") := by
        have firstAt : index [path] 0 = .ok path := rfl
        rw [derivePrivateKeyForPath, pieces, eq_of_split_singleton pieces, firstAt, ok_bind, if_pos rfl]
      rw [rejected]
      exact ⟨not_panicked_fail _, fun key failed => absurd failed (fail_ne_ok _ _)⟩
    | cons second rest =>
      rw [derivePrivateKeyForPath_of_pieces hmacSHA512 serializeCompressed whiteSpace quote privKeyBytes chainCode
        pieces]
      set parts := if trimSpace whiteSpace first = "m" then second :: rest else first :: second :: rest with partsOf
      have inPieces : ∀ part ∈ parts, part ≠ "" := by
        intro part member
        apply nonempty part
        rw [pieces]
        rw [partsOf] at member
        split at member
        · exact List.mem_cons_of_mem _ member
        · exact member
      constructor
      · rw [panicked_map_iff]
        exact foldlM_not_panicked _ parts _
          fun acc part member => deriveStep_not_panicked hmacSHA512 serializeCompressed quote acc (inPieces part member)
      · intro key derived
        exact length_of_map_bytes derived

theorem derivePrivateKeyForPath_of_nonempty_cosmos :
    ¬Panicked (derivePrivateKeyForPath (fun key data => key ++ data) id (fun _ => false) id
      (Bytes32.copyOf []) (Bytes32.copyOf []) "m/44\x27/118\x27/0\x27/0/0") :=
  (derivePrivateKeyForPath_of_nonempty (fun key data => key ++ data) id (fun _ => false) id
    (Bytes32.copyOf []) (Bytes32.copyOf []) (by decide)).1

end Spec

end CoreSdk.Crypto.Hd
