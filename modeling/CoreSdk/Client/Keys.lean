import CoreSdk.Go.Runtime
import CoreSdk.Types.Errors
import Mathlib.Logic.Function.Basic

/-!
# The key manager

A transcription of `KeyManager` of `client/keys.go` over a `KeyDAO` that
behaves as a map from names to `KeyInfo` (`types/store/memory.go`), with the
parts of `common/crypto` it calls: `NewMnemonicKeyManager`,
`recoveryFromMnemonic`, `ImportPrivKey`, `hd.NewSigningAlgoFromString` and
`FromTmPubKey`. What is outside the repository is a parameter: the key types'
own operations, the amino codec, BIP-39/BIP-32 derivation, the armor
decryption and Bech32.

Every operation that stores a key records in `KeyInfo.Algo` the manager's
`Algo`, and `Find` and `Sign` re-type the public key by that name. For keys the
manager derived itself the name is the key's own type; a key imported from an
armor of another type is stored under the wrong name, and `Find` then returns a
public key of the manager's type over the other key's bytes.
-/

namespace CoreSdk.Client.Keys

open CoreSdk.Types

set_option autoImplicit false

/-- The concrete key types the amino codec registers: the three the SDK derives
and signs with, and the others (ed25519, sr25519, the Tendermint types). -/
inductive KeyType where
  | secp256k1
  | sm2
  | ethSecp256k1
  | other (name : String)
  deriving DecidableEq, Repr

/-- A key as the amino codec carries it: its registered type and its bytes. -/
structure TypedKey where
  keyType : KeyType
  bytes : List UInt8
  deriving DecidableEq, Repr

/-- `store.KeyInfo`. -/
structure KeyInfo where
  name : String
  pubKey : List UInt8
  privKeyArmor : List UInt8
  algo : String
  deriving DecidableEq, Repr

/-- A `KeyDAO` that behaves as a map from names to `KeyInfo`: `Write` and
`Delete` update it and never fail, whatever the password. -/
abbrev Store := String → Option KeyInfo

/-- `KeyManager`, with its `KeyDAO` as the state the operations pass on. -/
structure KeyManager where
  algo : String
  deriving DecidableEq, Repr

/-- What the key manager calls outside the repository. -/
structure Env where
  /-- `PrivKey.PubKey()`. -/
  pubKey : TypedKey → TypedKey
  /-- `PubKey.Address()`. -/
  address : TypedKey → List UInt8
  /-- `PrivKey.Sign(data)`. -/
  sign : TypedKey → List UInt8 → Except String (List UInt8)
  /-- `PubKey.VerifySignature(data, sig)`. -/
  verify : TypedKey → List UInt8 → List UInt8 → Bool
  /-- `cryptoamino.MarshalPubkey`. -/
  marshalPubkey : TypedKey → List UInt8
  /-- `cryptoamino.PubKeyFromBytes`. -/
  pubKeyFromBytes : List UInt8 → Except String TypedKey
  /-- `cryptoamino.MarshalPrivKey`. -/
  marshalPrivKey : TypedKey → List UInt8
  /-- `cryptoamino.PrivKeyFromBytes`. -/
  privKeyFromBytes : List UInt8 → Except String TypedKey
  /-- `algo.Derive()(mnemonic, "", hdPath)`, then `algo.Generate()`: the private key bytes. -/
  derive : KeyType → String → String → Except String (List UInt8)
  /-- `UnarmorDecryptPrivKey(armor, passphrase)`: the key and the algorithm its header names. -/
  unarmorDecryptPrivKey : String → String → Except String (TypedKey × String)
  /-- `AccAddress.String()`: Bech32 with the account prefix. -/
  accAddressString : List UInt8 → String
  /-- The error of the `KeyDAO` for a name it does not hold. -/
  missingError : String

variable (env : Env)

/-- `hd.FullPath`, `m/44'/118'/0'/0/0`. -/
def fullPath : String := "m/44\x27/118\x27/0\x27/0/0"

/-- `hd.NewSigningAlgoFromString`. -/
def newSigningAlgoFromString (str : String) : Except String KeyType :=
  match str with
  | "secp256k1" => .ok .secp256k1
  | "sm2" => .ok .sm2
  | "eth_secp256k1" => .ok .ethSecp256k1
  | _ => .error ("provided algorithm \x60" ++ str ++ "\x60 is not supported")

/-- `FromTmPubKey`: the bytes of the key, re-typed by the name `algo`; an
unknown name leaves the interface nil. -/
def fromTmPubKey (algo : String) (pubKey : TypedKey) : Option TypedKey :=
  match algo with
  | "sm2" => some ⟨.sm2, pubKey.bytes⟩
  | "secp256k1" => some ⟨.secp256k1, pubKey.bytes⟩
  | "eth_secp256k1" => some ⟨.ethSecp256k1, pubKey.bytes⟩
  | _ => none

/-- `keyManager.recoveryFromMnemonic`: the private key of the algorithm, derived
along `hdPath`. -/
def recoveryFromMnemonic (mnemonic hdPath algoStr : String) : Except String TypedKey := do
  let words := mnemonic.splitOn " "
  if words.length ≠ 12 ∧ words.length ≠ 24 then
    throw "mnemonic length should either be 12 or 24"
  let algo ← newSigningAlgoFromString algoStr
  -- create master key and derive first key for keyring
  let derivedPriv ← env.derive algo mnemonic hdPath
  pure ⟨algo, derivedPriv⟩

/-- The `KeyInfo` that `Insert`, `Recover` and `Import` all write: the key's
public key and private key, and the manager's `Algo`. -/
def keyInfo (algo name : String) (priv : TypedKey) : KeyInfo :=
  ⟨name, env.marshalPubkey (env.pubKey priv), env.marshalPrivKey priv, algo⟩

/-- The address string `Insert`, `Recover` and `Import` all return. -/
def addressOf (priv : TypedKey) : String := env.accAddressString (env.address (env.pubKey priv))

/-- The common tail of `Insert`, `Recover` and `Import`: write the key under
its name and return its address. -/
def writeKey (mgr : KeyManager) (store : Store) (name : String) (priv : TypedKey) : Store × String :=
  (Function.update store name (some (keyInfo env mgr.algo name priv)), addressOf env priv)

/-- `KeyManager.Insert`, with the mnemonic that `NewAlgoKeyManager` draws from
its entropy. Returns the store, the address and the mnemonic. -/
def insert (mgr : KeyManager) (store : Store) (name _password mnemonic : String) :
    Except String (Store × String × String) := do
  if (store name).isSome then throw ("name " ++ name ++ " has existed")
  let priv ← recoveryFromMnemonic env mnemonic fullPath mgr.algo
  let (store, address) := writeKey env mgr store name priv
  pure (store, address, mnemonic)

/-- `KeyManager.Recover`. -/
def recover (mgr : KeyManager) (store : Store) (name _password mnemonic hdPath : String) :
    Except String (Store × String) := do
  if (store name).isSome then throw ("name " ++ name ++ " has existed")
  let priv ← if hdPath = "" then recoveryFromMnemonic env mnemonic fullPath mgr.algo
    else recoveryFromMnemonic env mnemonic hdPath mgr.algo
  pure (writeKey env mgr store name priv)

/-- `KeyManager.Import`. The algorithm named in the armor is read and dropped:
the key is stored under the manager's `Algo`. -/
def importKey (mgr : KeyManager) (store : Store) (name password armor : String) :
    Except String (Store × String) := do
  if (store name).isSome then throw (name ++ " has existed")
  let (priv, _) ← match env.unarmorDecryptPrivKey armor password with
    | .ok decoded => pure decoded
    | .error err => throw ("failed to decrypt private key: " ++ err)
  pure (writeKey env mgr store name priv)

/-- `KeyManager.Delete`. -/
def delete (store : Store) (name _password : String) : Store := Function.update store name none

/-- `KeyManager.Sign`: the signature and the public key re-typed by the stored `Algo`. -/
def sign (store : Store) (name _password : String) (data : List UInt8) :
    Except String (List UInt8 × Option TypedKey) := do
  let some info := store name | throw ("name " ++ name ++ " not exist")
  let priv ← match env.privKeyFromBytes info.privKeyArmor with
    | .ok priv => pure priv
    | .error _ => throw ("name " ++ name ++ " not exist")
  let signByte ← env.sign priv data
  pure (signByte, fromTmPubKey info.algo (env.pubKey priv))

/-- `KeyManager.Find`: the public key re-typed by the stored `Algo`, and the
address of the key as decoded. -/
def find (store : Store) (name _password : String) : Except SdkError (Option TypedKey × List UInt8) := do
  let some info := store name | throw (wrap (.other ("name " ++ name ++ " not exist: " ++ env.missingError)))
  let pubKey ← match env.pubKeyFromBytes info.pubKey with
    | .ok pubKey => pure pubKey
    | .error err => throw (wrap (.other ("name " ++ name ++ " not exist: " ++ err)))
  pure (fromTmPubKey info.algo pubKey, env.address pubKey)

/-! ## Runs of the key manager -/

/-- The operations of the manager that change its store. -/
inductive Op where
  | insert (name password mnemonic : String)
  | recover (name password mnemonic hdPath : String)
  | importKey (name password armor : String)
  | delete (name password : String)

/-- The state of a run: the store, and for each name it holds the address that
the operation which stored it returned. The second component is bookkeeping for
the statements; the manager does not keep it. -/
structure RunState where
  store : Store
  ledger : String → Option String

/-- The state a run starts from: an empty store. -/
def RunState.empty : RunState := ⟨fun _ => none, fun _ => none⟩

/-- One operation of the manager. A failed operation writes nothing. -/
def step (mgr : KeyManager) (state : RunState) : Op → RunState
  | .insert name password mnemonic =>
      match insert env mgr state.store name password mnemonic with
      | .ok (store, address, _) => ⟨store, Function.update state.ledger name (some address)⟩
      | .error _ => state
  | .recover name password mnemonic hdPath =>
      match recover env mgr state.store name password mnemonic hdPath with
      | .ok (store, address) => ⟨store, Function.update state.ledger name (some address)⟩
      | .error _ => state
  | .importKey name password armor =>
      match importKey env mgr state.store name password armor with
      | .ok (store, address) => ⟨store, Function.update state.ledger name (some address)⟩
      | .error _ => state
  | .delete name password => ⟨delete state.store name password, Function.update state.ledger name none⟩

/-- A run of operations. -/
def run (mgr : KeyManager) (state : RunState) (ops : List Op) : RunState := ops.foldl (step env mgr) state

/-! ## What the store holds -/

theorem newSigningAlgoFromString_eq_ok {algo : String} {keyType : KeyType}
    (named : newSigningAlgoFromString algo = .ok keyType) :
    (algo = "secp256k1" ∧ keyType = .secp256k1) ∨ (algo = "sm2" ∧ keyType = .sm2) ∨
      (algo = "eth_secp256k1" ∧ keyType = .ethSecp256k1) := by
  unfold newSigningAlgoFromString at named
  split at named <;> simp_all

/-- `FromTmPubKey` re-types a key by a name `NewSigningAlgoFromString` accepts as that type. -/
theorem fromTmPubKey_of_newSigningAlgo {algo : String} {keyType : KeyType}
    (named : newSigningAlgoFromString algo = .ok keyType) (pubKey : TypedKey) :
    fromTmPubKey algo pubKey = some ⟨keyType, pubKey.bytes⟩ := by
  rcases newSigningAlgoFromString_eq_ok named with ⟨rfl, rfl⟩ | ⟨rfl, rfl⟩ | ⟨rfl, rfl⟩ <;> rfl

section Consistency

-- The codec need round-trip only the keys of the manager's type, the only ones
-- a consistent store holds.
variable (algoType : KeyType) (pubKeyType : ∀ key, (env.pubKey key).keyType = key.keyType)
  (pubKeyRoundTrip : ∀ key, key.keyType = algoType → env.pubKeyFromBytes (env.marshalPubkey key) = .ok key)
  (privKeyRoundTrip : ∀ key, key.keyType = algoType → env.privKeyFromBytes (env.marshalPrivKey key) = .ok key)

end Consistency

/-- `Find` on a name present whose public key decodes: the key re-typed by the
stored name, and the address of the key as decoded. -/
theorem find_of_present (store : Store) (name password : String) (info : KeyInfo)
    (present : store name = some info) (pubKey : TypedKey)
    (decodes : env.pubKeyFromBytes info.pubKey = .ok pubKey) :
    find env store name password = .ok (fromTmPubKey info.algo pubKey, env.address pubKey) := by
  simp only [find, present, decodes, bind, Except.bind, pure, Except.pure]

/-- A toy environment in which a key's address is its type's tag, and every
armor holds the sm2 key with bytes [7]. -/
def taggedEnv : Env where
  pubKey := id
  address := fun key => if key.keyType = .sm2 then [1] else [0]
  sign := fun _ data => .ok data
  verify := fun _ data sig => data == sig
  marshalPubkey := TypedKey.bytes
  pubKeyFromBytes := fun bytes => .ok ⟨.sm2, bytes⟩
  marshalPrivKey := TypedKey.bytes
  privKeyFromBytes := fun bytes => .ok ⟨.sm2, bytes⟩
  derive := fun _ _ _ => .ok []
  unarmorDecryptPrivKey := fun _ _ => .ok (⟨.sm2, [7]⟩, "sm2")
  accAddressString := fun address => toString address
  missingError := "key not found"

/-- `Import` into a fresh name succeeds with the key the armor holds. -/
theorem importKey_of_unarmored (mgr : KeyManager) (store : Store) (name password armor armorAlgo : String)
    (priv : TypedKey) (absent : store name = none)
    (unarmored : env.unarmorDecryptPrivKey armor password = .ok (priv, armorAlgo)) :
    importKey env mgr store name password armor = .ok (writeKey env mgr store name priv) := by
  simp only [importKey, absent, Option.isSome_none, Bool.false_eq_true, ↓reduceIte, unarmored]
  rfl

/-- `Find` right after the manager wrote a key: the key's public key re-typed
by the manager's `Algo`, and the address of the key's own public key. -/
theorem find_writeKey (mgr : KeyManager) (store : Store) (name password : String) (priv : TypedKey)
    (decodes : env.pubKeyFromBytes (env.marshalPubkey (env.pubKey priv)) = .ok (env.pubKey priv)) :
    find env (writeKey env mgr store name priv).1 name password =
      .ok (fromTmPubKey mgr.algo (env.pubKey priv), env.address (env.pubKey priv)) :=
  find_of_present env _ name password _ (Function.update_self name _ store) _ decodes

/-- `Import` of an armor whose key is not of the manager's type breaks `Find`:
the address `Find` returns is the one `Import` returned, but the public key it
returns is the imported key's bytes under the manager's type, whose address is
another one whenever the two types derive different addresses from those
bytes. -/
theorem find_after_import_other_algo (mgr : KeyManager) (algoType : KeyType)
    (named : newSigningAlgoFromString mgr.algo = .ok algoType) (store : Store)
    (name password armor armorAlgo : String) (priv : TypedKey) (absent : store name = none)
    (unarmored : env.unarmorDecryptPrivKey armor password = .ok (priv, armorAlgo))
    (decodes : env.pubKeyFromBytes (env.marshalPubkey (env.pubKey priv)) = .ok (env.pubKey priv))
    (addressesDiffer : env.address ⟨algoType, (env.pubKey priv).bytes⟩ ≠ env.address (env.pubKey priv)) :
    ∃ stored address pk a, importKey env mgr store name password armor = .ok (stored, address) ∧
      find env stored name password = .ok (some pk, a) ∧ env.accAddressString a = address ∧
      env.address pk ≠ a := by
  refine ⟨_, _, ⟨algoType, (env.pubKey priv).bytes⟩, env.address (env.pubKey priv),
    importKey_of_unarmored env mgr store name password armor armorAlgo priv absent unarmored, ?_, rfl,
    addressesDiffer⟩
  have found := find_writeKey env mgr store name password priv decodes
  rw [fromTmPubKey_of_newSigningAlgo named] at found
  exact found

theorem find_after_import_other_algo_sm2 :
    ∃ stored address pk a, importKey taggedEnv ⟨"secp256k1"⟩ RunState.empty.store "validator" "password"
        "armor" = .ok (stored, address) ∧
      find taggedEnv stored "validator" "password" = .ok (some pk, a) ∧
      taggedEnv.accAddressString a = address ∧ taggedEnv.address pk ≠ a :=
  find_after_import_other_algo taggedEnv ⟨"secp256k1"⟩ .secp256k1 rfl RunState.empty.store "validator"
    "password" "armor" "sm2" ⟨.sm2, [7]⟩ rfl rfl rfl (by decide)

end CoreSdk.Client.Keys
