import CoreSdk.Tx.Builder

/-!
# Unwrapping a transaction

`Unwrap` (`types/tx/tx.go`) turns a wrapper into the plain `UnwrappedTx` of
`types/stdtx.go`. It walks the keys `GetPubKeys` returns and reads the signature
and the signer info at the position of the key in that list. `GetPubKeys` skips
a signer info without a key, or with one that is neither cached nor unpacked,
so after a skipped signer the two positions part: the unwrapped signature at a
skipped signer's place carries the key of a later signer, with the signature
and the sequence of the skipped one (`unwrap_misattributes_after_skipped_key`).
When no signer is skipped, each entry is one signer's (`unwrap_attributes_signers`).

The type assertion to `*wrapper` is the type of `unwrap`'s argument. The cached
value of an `Any`, `UnpackAny`, `Type()` of a key and `Bech32ifyPubKey` are
parameters.
-/

namespace CoreSdk.Tx

open Go CoreSdk.Types

set_option autoImplicit false

structure UnwrappedPubKey where
  type : String
  value : String
  deriving DecidableEq, Repr

structure UnwrappedSignature where
  pubKey : UnwrappedPubKey
  sig : Bytes
  sequence : UInt64
  deriving DecidableEq, Repr

structure StdFee where
  amount : Coins
  gas : UInt64

structure UnwrappedTxBody (Msg : Type) where
  msgs : List Msg
  memo : String
  timeoutHeight : UInt64

/-- `UnwrappedAuthInfo`; `Unwrap` always sets its `Fee` pointer. -/
structure UnwrappedAuthInfo where
  signatures : List UnwrappedSignature
  fee : StdFee

structure UnwrappedTx (Msg : Type) where
  body : UnwrappedTxBody Msg
  authInfo : UnwrappedAuthInfo

section Unwrap

variable {Key Msg : Type} (cachedPubKey : Any → Option Key) (unpackAny : Any → Option Key)

/-- The key a signer info gives `GetPubKeys`; `unpackAny` is `none` where
`UnpackAny` returns an error. -/
def pubKeyOf (si : SignerInfo) : Option Key :=
  match si.publicKey with
  | none => none
  | some any =>
    match cachedPubKey any with
    | some pk => some pk
    | none => unpackAny any

/-- `wrapper.GetPubKeys`. -/
def getPubKeys (w : Wrapper) : List Key :=
  w.tx.authInfo.signerInfos.filterMap (pubKeyOf cachedPubKey unpackAny)

variable (cachedMsg : Any → Option Msg)

/-- `Tx.GetMsgs`: the assertion `any.GetCachedValue().(sdk.Msg)` panics on a
message that was not unpacked. -/
def getMsgs (messages : List Any) : Result (List Msg) :=
  messages.mapM fun any =>
    match cachedMsg any with
    | some msg => pure msg
    | none => panicWith "interface conversion: interface is nil, not types.Msg"

variable (keyType : Key → String) (bech32ifyPubKey : Key → Result String)

/-- The body of the loop of `Unwrap`, at the `i`-th key. -/
def unwrapSignature (w : Wrapper) (entry : Key × Nat) : Result UnwrappedSignature := do
  let (pubKey, i) := entry
  let bech32PubKey ← bech32ifyPubKey pubKey
  let sig ← index w.tx.signatures i
  let signerInfo ← index w.tx.authInfo.signerInfos i
  pure ⟨⟨keyType pubKey, bech32PubKey⟩, sig, signerInfo.sequence⟩

/-- `Unwrap`; the fee is read through the `Fee` pointer of the auth info. -/
def unwrap (w : Wrapper) : Result (UnwrappedTx Msg) := do
  let msgs ← getMsgs cachedMsg w.tx.body.messages
  let txBody : UnwrappedTxBody Msg := ⟨msgs, w.tx.body.memo, w.tx.body.timeoutHeight⟩
  let signatures ← (getPubKeys cachedPubKey unpackAny w).zipIdx.mapM (unwrapSignature keyType bech32ifyPubKey w)
  let fee ← match w.tx.authInfo.fee with
    | some fee => pure fee
    | none => panicWith nilDereference
  pure ⟨txBody, ⟨signatures, ⟨fee.amount, fee.gasLimit⟩⟩⟩

end Unwrap

section Spec

variable {Key Msg : Type} (cachedPubKey : Any → Option Key) (unpackAny : Any → Option Key)
  (cachedMsg : Any → Option Msg) (keyType : Key → String) (bech32ifyPubKey : Key → Result String)

theorem length_getPubKeys_le (w : Wrapper) :
    (getPubKeys cachedPubKey unpackAny w).length ≤ w.tx.authInfo.signerInfos.length :=
  List.length_filterMap_le _ _

theorem getMsgs_of_cached {messages : List Any} (cached : ∀ any ∈ messages, (cachedMsg any).isSome) :
    ∃ msgs, getMsgs cachedMsg messages = .ok msgs := by
  induction messages with
  | nil => exact ⟨[], rfl⟩
  | cons any rest induction =>
    obtain ⟨msg, found⟩ := Option.isSome_iff_exists.mp (cached any List.mem_cons_self)
    obtain ⟨msgs, gotRest⟩ := induction fun other member => cached other (List.mem_cons_of_mem any member)
    refine ⟨msg :: msgs, ?_⟩
    unfold getMsgs at gotRest ⊢
    rw [List.mapM_cons, found, gotRest]
    rfl

/-- What `Unwrap` puts at the `i`-th key, given the text `Bech32ifyPubKey`
returns for each key. -/
def signatureAt (bech32 : Key → String) (w : Wrapper) (entry : Key × Nat) : UnwrappedSignature :=
  ⟨⟨keyType entry.1, bech32 entry.1⟩, w.tx.signatures.getD entry.2 [],
    (w.tx.authInfo.signerInfos[entry.2]?.map SignerInfo.sequence).getD 0⟩

theorem unwrapSignature_of_lt (bech32 : Key → String) (w : Wrapper) (pk : Key) (i : Nat)
    (encoded : bech32ifyPubKey pk = .ok (bech32 pk)) (signed : i < w.tx.signatures.length)
    (info : i < w.tx.authInfo.signerInfos.length) :
    unwrapSignature keyType bech32ifyPubKey w (pk, i) = .ok (signatureAt keyType bech32 w (pk, i)) := by
  simp only [unwrapSignature, encoded, ok_bind, index_natCast_of_lt _ _ signed, index_natCast_of_lt _ _ info,
    pure_eq_ok, signatureAt, List.getD_eq_getElem?_getD, List.getElem?_eq_getElem signed,
    List.getElem?_eq_getElem info, Option.getD_some, Option.map_some]

/-- `Unwrap` returns when every message was unpacked, every key has a Bech32
text, there are signatures for all keys and the fee is set; the `k`-th entry is
built from the `k`-th key and the `k`-th signature and signer info. -/
theorem unwrap_eq_ok {w : Wrapper} (bech32 : Key → String) {fee : Fee}
    (cached : ∀ any ∈ w.tx.body.messages, (cachedMsg any).isSome)
    (encodes : ∀ pk ∈ getPubKeys cachedPubKey unpackAny w, bech32ifyPubKey pk = .ok (bech32 pk))
    (signed : (getPubKeys cachedPubKey unpackAny w).length ≤ w.tx.signatures.length)
    (hasFee : w.tx.authInfo.fee = some fee) :
    ∃ msgs, unwrap cachedPubKey unpackAny cachedMsg keyType bech32ifyPubKey w =
      .ok ⟨⟨msgs, w.tx.body.memo, w.tx.body.timeoutHeight⟩,
        ⟨(getPubKeys cachedPubKey unpackAny w).zipIdx.map (signatureAt keyType bech32 w),
          ⟨fee.amount, fee.gasLimit⟩⟩⟩ := by
  obtain ⟨msgs, gotMsgs⟩ := getMsgs_of_cached cachedMsg cached
  have looped : (getPubKeys cachedPubKey unpackAny w).zipIdx.mapM (unwrapSignature keyType bech32ifyPubKey w) =
      .ok ((getPubKeys cachedPubKey unpackAny w).zipIdx.map (signatureAt keyType bech32 w)) := by
    apply mapM_eq_ok_map
    rintro ⟨pk, i⟩ member
    have position := List.mem_zipIdx member
    have keys := length_getPubKeys_le cachedPubKey unpackAny w
    apply unwrapSignature_of_lt keyType bech32ifyPubKey bech32 w pk i
      (encodes pk (List.fst_mem_of_mem_zipIdx member)) (by omega) (by omega)
  refine ⟨msgs, ?_⟩
  simp only [unwrap, gotMsgs, looped, hasFee, ok_bind, pure_eq_ok]

/-- The `k`-th unwrapped signature, when the conditions of `unwrap_eq_ok` hold. -/
theorem unwrap_signature_getElem? {w : Wrapper} (bech32 : Key → String) {fee : Fee}
    (cached : ∀ any ∈ w.tx.body.messages, (cachedMsg any).isSome)
    (encodes : ∀ pk ∈ getPubKeys cachedPubKey unpackAny w, bech32ifyPubKey pk = .ok (bech32 pk))
    (signed : (getPubKeys cachedPubKey unpackAny w).length ≤ w.tx.signatures.length)
    (hasFee : w.tx.authInfo.fee = some fee) (k : Nat) :
    ∃ tx, unwrap cachedPubKey unpackAny cachedMsg keyType bech32ifyPubKey w = .ok tx ∧
      tx.authInfo.signatures[k]? =
        (getPubKeys cachedPubKey unpackAny w)[k]?.map fun pk => signatureAt keyType bech32 w (pk, k) := by
  obtain ⟨msgs, unwrapped⟩ := unwrap_eq_ok cachedPubKey unpackAny cachedMsg keyType bech32ifyPubKey bech32
    cached encodes signed hasFee
  refine ⟨_, unwrapped, ?_⟩
  rw [List.getElem?_map, List.getElem?_zipIdx, Option.map_map]
  simp only [Function.comp_def, Nat.zero_add]

/-- The key list has the key of the first signer after the skipped ones at the
place of the first skipped signer. -/
theorem getPubKeys_getElem?_of_skipped {w : Wrapper} {before skipped after : List SignerInfo}
    {signer : SignerInfo} {pk : Key} (infos : w.tx.authInfo.signerInfos = before ++ skipped ++ signer :: after)
    (resolved : ∀ si ∈ before, (pubKeyOf cachedPubKey unpackAny si).isSome)
    (noKey : ∀ si ∈ skipped, pubKeyOf cachedPubKey unpackAny si = none)
    (next : pubKeyOf cachedPubKey unpackAny signer = some pk) :
    (getPubKeys cachedPubKey unpackAny w)[before.length]? = some pk := by
  have kept : (before.filterMap (pubKeyOf cachedPubKey unpackAny)).length = before.length :=
    List.filterMap_length_eq_length.mpr resolved
  have dropped : skipped.filterMap (pubKeyOf cachedPubKey unpackAny) = [] := List.filterMap_eq_nil_iff.mpr noKey
  rw [getPubKeys, infos, List.filterMap_append, List.filterMap_append, dropped, List.append_nil,
    List.filterMap_cons, next, List.getElem?_append_right kept.le, kept, Nat.sub_self]
  rfl

end Spec

section Attribution

variable {Key Msg : Type} (cachedPubKey : Any → Option Key) (unpackAny : Any → Option Key)
  (cachedMsg : Any → Option Msg) (keyType : Key → String) (bech32ifyPubKey : Key → Result String)

/-- When every signer info has a key, `Unwrap` returns and each entry is one
signer's key, signature and sequence. -/
theorem unwrap_attributes_signers (w : Wrapper) (bech32 : Key → String) (fee : Fee)
    (keyed : ∀ si ∈ w.tx.authInfo.signerInfos, (pubKeyOf cachedPubKey unpackAny si).isSome)
    (cached : ∀ any ∈ w.tx.body.messages, (cachedMsg any).isSome)
    (encodes : ∀ pk ∈ getPubKeys cachedPubKey unpackAny w, bech32ifyPubKey pk = .ok (bech32 pk))
    (signed : w.tx.signatures.length = w.tx.authInfo.signerInfos.length)
    (hasFee : w.tx.authInfo.fee = some fee) (k : Nat) (si : SignerInfo)
    (signerAt : w.tx.authInfo.signerInfos[k]? = some si) :
    ∃ tx pk sig, unwrap cachedPubKey unpackAny cachedMsg keyType bech32ifyPubKey w = .ok tx ∧
      pubKeyOf cachedPubKey unpackAny si = some pk ∧ w.tx.signatures[k]? = some sig ∧
      tx.authInfo.signatures[k]? = some ⟨⟨keyType pk, bech32 pk⟩, sig, si.sequence⟩ := by
  obtain ⟨bound, rfl⟩ := List.getElem?_eq_some_iff.mp signerAt
  obtain ⟨pk, found⟩ := Option.isSome_iff_exists.mp (keyed _ (List.getElem_mem bound))
  -- the signers before the `k`-th keep their places: none of them is skipped
  have split : w.tx.authInfo.signerInfos =
      w.tx.authInfo.signerInfos.take k ++ [] ++ w.tx.authInfo.signerInfos[k] :: w.tx.authInfo.signerInfos.drop (k + 1) := by
    rw [List.append_nil, ← List.drop_eq_getElem_cons bound, List.take_append_drop]
  have keyAt := getPubKeys_getElem?_of_skipped cachedPubKey unpackAny split
    (fun other member => keyed other (List.mem_of_mem_take member)) (fun _ member => absurd member List.not_mem_nil)
    found
  rw [List.length_take_of_le bound.le] at keyAt
  have sigBound : k < w.tx.signatures.length := by omega
  obtain ⟨tx, unwrapped, entry⟩ := unwrap_signature_getElem? cachedPubKey unpackAny cachedMsg keyType
    bech32ifyPubKey bech32 cached encodes (by rw [signed]; exact length_getPubKeys_le cachedPubKey unpackAny w)
    hasFee k
  refine ⟨tx, pk, w.tx.signatures[k], unwrapped, found, List.getElem?_eq_getElem sigBound, ?_⟩
  rw [entry, keyAt, Option.map_some]
  simp only [signatureAt, List.getD_eq_getElem?_getD, List.getElem?_eq_getElem sigBound, signerAt,
    Option.getD_some, Option.map_some]

/-- Two signers with cached keys: the second entry is the second signer's. -/
theorem unwrap_attributes_signers_second :
    ∃ tx pk sig, unwrap some (fun _ => none) some Any.typeUrl (fun _ => .ok "pub")
        ⟨⟨⟨[], "", 0, [], []⟩, ⟨[⟨some ⟨"/cosmos.crypto.secp256k1.PubKey", [1]⟩, .empty, 7⟩,
          ⟨some ⟨"/cosmos.crypto.secp256k1.PubKey", [2]⟩, .empty, 8⟩], some Fee.empty⟩, [[10], [20]]⟩, [], []⟩ = .ok tx ∧
      pubKeyOf some (fun _ => none) ⟨some ⟨"/cosmos.crypto.secp256k1.PubKey", [2]⟩, .empty, 8⟩ = some pk ∧
      ([[10], [20]] : List Bytes)[1]? = some sig ∧ tx.authInfo.signatures[1]? = some ⟨⟨Any.typeUrl pk, "pub"⟩, sig, 8⟩ :=
  unwrap_attributes_signers some (fun _ => none) some Any.typeUrl (fun _ => .ok "pub") _ (fun _ => "pub") Fee.empty
    (by simp [pubKeyOf]) (by simp) (fun _ _ => rfl) (by rfl) (by rfl) 1 _ (by rfl)

/-- After signers without a key, the entry at the first of them carries the key
of the next signer that has one, with the signature and sequence of the signer
that has none. -/
theorem unwrap_misattributes_after_skipped_key (w : Wrapper) (bech32 : Key → String) (fee : Fee)
    (before skipped after : List SignerInfo) (first signer : SignerInfo) (pk : Key)
    (infos : w.tx.authInfo.signerInfos = before ++ first :: skipped ++ signer :: after)
    (resolved : ∀ si ∈ before, (pubKeyOf cachedPubKey unpackAny si).isSome)
    (noKey : ∀ si ∈ first :: skipped, pubKeyOf cachedPubKey unpackAny si = none)
    (next : pubKeyOf cachedPubKey unpackAny signer = some pk)
    (cached : ∀ any ∈ w.tx.body.messages, (cachedMsg any).isSome)
    (encodes : ∀ pk ∈ getPubKeys cachedPubKey unpackAny w, bech32ifyPubKey pk = .ok (bech32 pk))
    (signed : w.tx.signatures.length = w.tx.authInfo.signerInfos.length)
    (hasFee : w.tx.authInfo.fee = some fee) :
    ∃ tx sig, unwrap cachedPubKey unpackAny cachedMsg keyType bech32ifyPubKey w = .ok tx ∧
      w.tx.signatures[before.length]? = some sig ∧
      tx.authInfo.signatures[before.length]? = some ⟨⟨keyType pk, bech32 pk⟩, sig, first.sequence⟩ := by
  have keyAt := getPubKeys_getElem?_of_skipped cachedPubKey unpackAny infos resolved noKey next
  obtain ⟨keyBound, -⟩ := List.getElem?_eq_some_iff.mp keyAt
  have keys := length_getPubKeys_le cachedPubKey unpackAny w
  have sigBound : before.length < w.tx.signatures.length := by omega
  -- the signer info at that place is the first one without a key
  have firstAt : w.tx.authInfo.signerInfos[before.length]? = some first := by
    rw [infos, List.append_assoc, List.getElem?_append_right le_rfl, Nat.sub_self]
    rfl
  obtain ⟨tx, unwrapped, entry⟩ := unwrap_signature_getElem? cachedPubKey unpackAny cachedMsg keyType
    bech32ifyPubKey bech32 cached encodes (by omega) hasFee before.length
  refine ⟨tx, w.tx.signatures[before.length], unwrapped, List.getElem?_eq_getElem sigBound, ?_⟩
  rw [entry, keyAt, Option.map_some]
  simp only [signatureAt, List.getD_eq_getElem?_getD, List.getElem?_eq_getElem sigBound, firstAt,
    Option.getD_some, Option.map_some]

/-- A signer without a key, then one with: the first entry has the second
signer's key with the first signer's signature and sequence. -/
theorem unwrap_misattributes_after_skipped_key_two :
    ∃ tx sig, unwrap some (fun _ => none) some Any.typeUrl (fun _ => .ok "pub")
        ⟨⟨⟨[], "", 0, [], []⟩, ⟨[⟨none, .empty, 7⟩, ⟨some ⟨"/cosmos.crypto.secp256k1.PubKey", [2]⟩, .empty, 8⟩],
          some Fee.empty⟩, [[10], [20]]⟩, [], []⟩ = .ok tx ∧
      ([[10], [20]] : List Bytes)[0]? = some sig ∧
      tx.authInfo.signatures[0]? = some ⟨⟨"/cosmos.crypto.secp256k1.PubKey", "pub"⟩, sig, 7⟩ :=
  unwrap_misattributes_after_skipped_key some (fun _ => none) some Any.typeUrl (fun _ => .ok "pub") _
    (fun _ => "pub") Fee.empty [] [] [] ⟨none, .empty, 7⟩ _ ⟨"/cosmos.crypto.secp256k1.PubKey", [2]⟩ (by rfl)
    (by simp) (by simp [pubKeyOf]) (by rfl) (by simp) (fun _ _ => rfl) (by rfl) (by rfl)

end Attribution

end CoreSdk.Tx
