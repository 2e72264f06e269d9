import CoreSdk.Tx.Sigs
import CoreSdk.Types.Coin

/-!
# The transaction builder

`wrapper` (`types/tx/builder.go`) holds a `Tx` and two byte caches, `bodyBz` and
`authInfoBz`. `getBodyBytes` and `getAuthInfoBytes` fill an empty cache with
`proto.Marshal` of the body or of the auth info. Every setter changes one of the
two parts and empties the cache of that part. `GetSignBytes` of
`SIGN_MODE_DIRECT` (`types/tx/direct.go`) signs whatever the two getters return.

A wrapper is `Coherent` when each cache is empty or holds the marshal of its
part. `newBuilder` is coherent, and every call keeps coherence
(`coherent_step`), so on every wrapper that a run of calls reaches, the getters
and the sign bytes are the marshal of the current `Tx`. A call that returns an
error does so before it changes anything.

The codecs are parameters: `proto.Marshal` of a body, of an auth info and of a
`SignDoc` is a function of its value. So are `codectypes.NewAnyWithValue`,
`PubKeyToAny` and the Bech32 text of an address.
-/

namespace CoreSdk.Tx

open Go CoreSdk.Types

set_option autoImplicit false

-- `Tx` is the source's name for the message this namespace is named after
set_option linter.dupNamespace false

/-- `codectypes.Any`: a type URL and the encoded value. -/
structure Any where
  typeUrl : String
  value : Bytes

structure TxBody where
  messages : List Any
  memo : String
  timeoutHeight : UInt64
  extensionOptions : List Any
  nonCriticalExtensionOptions : List Any

structure Fee where
  amount : Coins
  gasLimit : UInt64
  payer : String
  granter : String

/-- `Fee{}`. -/
def Fee.empty : Fee := ⟨[], 0, "", ""⟩

/-- `SignerInfo`; the `PublicKey` pointer is nil where the signer leaves it unset. -/
structure SignerInfo where
  publicKey : Option Any
  modeInfo : ModeInfo
  sequence : UInt64

/-- `AuthInfo`; the `Fee` pointer may be nil. -/
structure AuthInfo where
  signerInfos : List SignerInfo
  fee : Option Fee

structure Tx where
  body : TxBody
  authInfo : AuthInfo
  signatures : List Bytes

/-- `wrapper`; `txBodyHasUnknownNonCriticals` is read by none of its calls here. -/
structure Wrapper where
  tx : Tx
  bodyBz : Bytes
  authInfoBz : Bytes

/-- `newBuilder`: an empty body, an auth info with an empty fee, no caches. -/
def newBuilder : Wrapper :=
  ⟨⟨⟨[], "", 0, [], []⟩, ⟨[], some Fee.empty⟩, []⟩, [], []⟩

structure SignerData where
  chainId : String
  accountNumber : UInt64
  sequence : UInt64

structure SignDoc where
  bodyBytes : Bytes
  authInfoBytes : Bytes
  chainId : String
  accountNumber : UInt64

/-- `SignMode.String`, `proto.EnumName` over `SignMode_name`: the name of a known
mode, the number otherwise. -/
def SignMode.string (mode : SignMode) : String :=
  match mode.value.toInt with
  | 0 => "SIGN_MODE_UNSPECIFIED"
  | 1 => "SIGN_MODE_DIRECT"
  | 2 => "SIGN_MODE_TEXTUAL"
  | 127 => "SIGN_MODE_LEGACY_AMINO_JSON"
  | value => toString value

/-! ## The calls -/

section Calls

variable (marshalBody : TxBody → Bytes) (marshalAuthInfo : AuthInfo → Bytes)

/-- `getBodyBytes`. -/
def getBodyBytes (w : Wrapper) : Bytes × Wrapper :=
  if w.bodyBz.length = 0 then
    let bodyBz := marshalBody w.tx.body
    (bodyBz, { w with bodyBz })
  else (w.bodyBz, w)

/-- `getAuthInfoBytes`. -/
def getAuthInfoBytes (w : Wrapper) : Bytes × Wrapper :=
  if w.authInfoBz.length = 0 then
    let authInfoBz := marshalAuthInfo w.tx.authInfo
    (authInfoBz, { w with authInfoBz })
  else (w.authInfoBz, w)

/-- `SetMsgs`: every message is packed before the body changes, so one that
cannot be packed returns its error on the wrapper as it was. -/
def setMsgs {Msg : Type} (newAnyWithValue : Msg → Result Any) (msgs : List Msg) (w : Wrapper) :
    Result Unit × Wrapper :=
  match msgs.mapM newAnyWithValue with
  | .error fault => (.error fault, w)
  | .ok anys => (.ok (), { w with tx.body.messages := anys, bodyBz := [] })

/-- `SetTimeoutHeight`. -/
def setTimeoutHeight (height : UInt64) (w : Wrapper) : Wrapper :=
  { w with tx.body.timeoutHeight := height, bodyBz := [] }

/-- `SetMemo`. -/
def setMemo (memo : String) (w : Wrapper) : Wrapper :=
  { w with tx.body.memo := memo, bodyBz := [] }

/-- `SetExtensionOptions`. -/
def setExtensionOptions (extOpts : List Any) (w : Wrapper) : Wrapper :=
  { w with tx.body.extensionOptions := extOpts, bodyBz := [] }

/-- `SetNonCriticalExtensionOptions`. -/
def setNonCriticalExtensionOptions (extOpts : List Any) (w : Wrapper) : Wrapper :=
  { w with tx.body.nonCriticalExtensionOptions := extOpts, bodyBz := [] }

/-- The fee setters: a nil `Fee` is replaced by `Fee{}`, one field is set, and
the auth info cache is emptied. -/
def setFeeWith (update : Fee → Fee) (w : Wrapper) : Wrapper :=
  { w with tx.authInfo.fee := some (update (w.tx.authInfo.fee.getD Fee.empty)), authInfoBz := [] }

/-- `SetGasLimit`. -/
def setGasLimit (limit : UInt64) (w : Wrapper) : Wrapper :=
  setFeeWith (fun fee => { fee with gasLimit := limit }) w

/-- `SetFeeAmount`. -/
def setFeeAmount (coins : Coins) (w : Wrapper) : Wrapper :=
  setFeeWith (fun fee => { fee with amount := coins }) w

/-- `SetFeePayer`, the address written as its Bech32 text. -/
def setFeePayer (accAddressString : Bytes → String) (feePayer : Bytes) (w : Wrapper) : Wrapper :=
  setFeeWith (fun fee => { fee with payer := accAddressString feePayer }) w

/-- `SetFeeGranter`. -/
def setFeeGranter (accAddressString : Bytes → String) (feeGranter : Bytes) (w : Wrapper) : Wrapper :=
  setFeeWith (fun fee => { fee with granter := accAddressString feeGranter }) w

/-- `setSignerInfos`. -/
def setSignerInfos (infos : List SignerInfo) (w : Wrapper) : Wrapper :=
  { w with tx.authInfo.signerInfos := infos, authInfoBz := [] }

/-- The unexported `setSignatures`, named apart from `SetSignatures`: the raw
signatures are no part of the body or of the auth info. -/
def setTxSignatures (sigs : List Bytes) (w : Wrapper) : Wrapper :=
  { w with tx.signatures := sigs }

variable {Key : Type} (codec : MultiSignatureCodec) (pubKeyToAny : Option Key → Result Any)

/-- The loop of `SetSignatures`: the mode information and raw signature of each
signature, which panics where `SignatureDataToModeInfoAndSig` does, then its key
as an `Any`, which may return an error. -/
def signerInfosOf : List (SignatureV2 Key) → Result (List SignerInfo × List Bytes)
  | [] => pure ([], [])
  | sig :: rest => do
      let (modeInfo, rawSig) ← signatureDataToModeInfoAndSig codec sig.data
      let any ← pubKeyToAny sig.pubKey
      let (signerInfos, rawSigs) ← signerInfosOf rest
      pure (⟨some any, modeInfo, sig.sequence⟩ :: signerInfos, rawSig :: rawSigs)

/-- `SetSignatures`: the wrapper changes only after the whole loop. -/
def setSignatures (signatures : List (SignatureV2 Key)) (w : Wrapper) : Result Unit × Wrapper :=
  match signerInfosOf codec pubKeyToAny signatures with
  | .error fault => (.error fault, w)
  | .ok (signerInfos, rawSigs) => (.ok (), setTxSignatures rawSigs (setSignerInfos signerInfos w))

variable (marshalSignDoc : SignDoc → Bytes)

/-- `DirectSignBytes`. -/
def directSignBytes (bodyBytes authInfoBytes : Bytes) (chainId : String) (accnum : UInt64) : Bytes :=
  marshalSignDoc ⟨bodyBytes, authInfoBytes, chainId, accnum⟩

/-- `signModeDirectHandler.GetSignBytes` on a wrapper, which fills both caches. -/
def getSignBytes (mode : SignMode) (data : SignerData) (w : Wrapper) : Result Bytes × Wrapper :=
  if mode ≠ SignMode.signModeDirect then
    (fail ("expected " ++ SignMode.string SignMode.signModeDirect ++ ", got " ++ SignMode.string mode), w)
  else
    let (bodyBz, w) := getBodyBytes marshalBody w
    let (authInfoBz, w) := getAuthInfoBytes marshalAuthInfo w
    (.ok (directSignBytes marshalSignDoc bodyBz authInfoBz data.chainId data.accountNumber), w)

end Calls

/-! ## Runs of calls -/

/-- A call on the wrapper, with its arguments. -/
inductive Call (Msg Key : Type) where
  | setMsgs (msgs : List Msg)
  | setMemo (memo : String)
  | setTimeoutHeight (height : UInt64)
  | setExtensionOptions (extOpts : List Any)
  | setNonCriticalExtensionOptions (extOpts : List Any)
  | setGasLimit (limit : UInt64)
  | setFeeAmount (coins : Coins)
  | setFeePayer (feePayer : Bytes)
  | setFeeGranter (feeGranter : Bytes)
  | setSignatures (signatures : List (SignatureV2 Key))
  | getBodyBytes
  | getAuthInfoBytes
  | getSignBytes (mode : SignMode) (data : SignerData)

/-- After a call: a panic ends the run, a returned error does not. -/
def afterCall {α : Type} (call : Result α × Wrapper) : Result Wrapper :=
  match call.1 with
  | .error (.panic message) => panicWith message
  | _ => .ok call.2

section Run

variable {Msg Key : Type} (marshalBody : TxBody → Bytes) (marshalAuthInfo : AuthInfo → Bytes)
  (marshalSignDoc : SignDoc → Bytes) (newAnyWithValue : Msg → Result Any) (codec : MultiSignatureCodec)
  (pubKeyToAny : Option Key → Result Any) (accAddressString : Bytes → String)

/-- The wrapper after one call. -/
def step : Call Msg Key → Wrapper → Result Wrapper
  | .setMsgs msgs, w => afterCall (setMsgs newAnyWithValue msgs w)
  | .setMemo memo, w => .ok (setMemo memo w)
  | .setTimeoutHeight height, w => .ok (setTimeoutHeight height w)
  | .setExtensionOptions extOpts, w => .ok (setExtensionOptions extOpts w)
  | .setNonCriticalExtensionOptions extOpts, w => .ok (setNonCriticalExtensionOptions extOpts w)
  | .setGasLimit limit, w => .ok (setGasLimit limit w)
  | .setFeeAmount coins, w => .ok (setFeeAmount coins w)
  | .setFeePayer feePayer, w => .ok (setFeePayer accAddressString feePayer w)
  | .setFeeGranter feeGranter, w => .ok (setFeeGranter accAddressString feeGranter w)
  | .setSignatures signatures, w => afterCall (setSignatures codec pubKeyToAny signatures w)
  | .getBodyBytes, w => .ok (getBodyBytes marshalBody w).2
  | .getAuthInfoBytes, w => .ok (getAuthInfoBytes marshalAuthInfo w).2
  | .getSignBytes mode data, w =>
      afterCall (getSignBytes marshalBody marshalAuthInfo marshalSignDoc mode data w)

/-- The wrapper after a sequence of calls. -/
def run (calls : List (Call Msg Key)) (w : Wrapper) : Result Wrapper :=
  calls.foldlM (fun w call => step marshalBody marshalAuthInfo marshalSignDoc newAnyWithValue codec
    pubKeyToAny accAddressString call w) w

end Run

/-! ## The caches stay coherent -/

section Coherence

variable (marshalBody : TxBody → Bytes) (marshalAuthInfo : AuthInfo → Bytes)

/-- Each byte cache is empty or holds the marshal of its part. -/
structure Coherent (w : Wrapper) : Prop where
  body : w.bodyBz = [] ∨ w.bodyBz = marshalBody w.tx.body
  authInfo : w.authInfoBz = [] ∨ w.authInfoBz = marshalAuthInfo w.tx.authInfo

theorem coherent_newBuilder : Coherent marshalBody marshalAuthInfo newBuilder :=
  ⟨Or.inl rfl, Or.inl rfl⟩

/-- A change to the body that empties its cache keeps coherence. -/
theorem coherent_of_bodyBz_nil {w w' : Wrapper} (coherent : Coherent marshalBody marshalAuthInfo w)
    (emptied : w'.bodyBz = []) (sameAuthInfo : w'.tx.authInfo = w.tx.authInfo)
    (sameAuthInfoBz : w'.authInfoBz = w.authInfoBz) : Coherent marshalBody marshalAuthInfo w' :=
  ⟨Or.inl emptied, by rw [sameAuthInfo, sameAuthInfoBz]; exact coherent.authInfo⟩

/-- A change to the auth info that empties its cache keeps coherence. -/
theorem coherent_of_authInfoBz_nil {w w' : Wrapper} (coherent : Coherent marshalBody marshalAuthInfo w)
    (emptied : w'.authInfoBz = []) (sameBody : w'.tx.body = w.tx.body) (sameBodyBz : w'.bodyBz = w.bodyBz) :
    Coherent marshalBody marshalAuthInfo w' :=
  ⟨by rw [sameBody, sameBodyBz]; exact coherent.body, Or.inl emptied⟩

variable {marshalBody marshalAuthInfo}

/-- On a coherent wrapper `getBodyBytes` returns the marshal of the body, and
leaves the `Tx` as it is and the wrapper coherent. -/
theorem getBodyBytes_of_coherent {w : Wrapper} (coherent : Coherent marshalBody marshalAuthInfo w) :
    (getBodyBytes marshalBody w).1 = marshalBody w.tx.body ∧ (getBodyBytes marshalBody w).2.tx = w.tx ∧
      Coherent marshalBody marshalAuthInfo (getBodyBytes marshalBody w).2 := by
  unfold getBodyBytes
  split_ifs with empty
  · exact ⟨rfl, rfl, Or.inr rfl, coherent.authInfo⟩
  · -- a cache that is not empty holds the marshal
    have filled : w.bodyBz = marshalBody w.tx.body :=
      coherent.body.resolve_left fun nil => empty (by rw [nil]; rfl)
    exact ⟨filled, rfl, coherent⟩

theorem getAuthInfoBytes_of_coherent {w : Wrapper} (coherent : Coherent marshalBody marshalAuthInfo w) :
    (getAuthInfoBytes marshalAuthInfo w).1 = marshalAuthInfo w.tx.authInfo ∧
      (getAuthInfoBytes marshalAuthInfo w).2.tx = w.tx ∧
      Coherent marshalBody marshalAuthInfo (getAuthInfoBytes marshalAuthInfo w).2 := by
  unfold getAuthInfoBytes
  split_ifs with empty
  · exact ⟨rfl, rfl, coherent.body, Or.inr rfl⟩
  · have filled : w.authInfoBz = marshalAuthInfo w.tx.authInfo :=
      coherent.authInfo.resolve_left fun nil => empty (by rw [nil]; rfl)
    exact ⟨filled, rfl, coherent⟩

variable (marshalSignDoc : SignDoc → Bytes)

/-- `SIGN_MODE_DIRECT` signs the marshal of the current body and auth info. -/
theorem getSignBytes_of_coherent {w : Wrapper} (coherent : Coherent marshalBody marshalAuthInfo w)
    (data : SignerData) :
    (getSignBytes marshalBody marshalAuthInfo marshalSignDoc SignMode.signModeDirect data w).1 =
        .ok (marshalSignDoc ⟨marshalBody w.tx.body, marshalAuthInfo w.tx.authInfo, data.chainId,
          data.accountNumber⟩) ∧
      Coherent marshalBody marshalAuthInfo
        (getSignBytes marshalBody marshalAuthInfo marshalSignDoc SignMode.signModeDirect data w).2 := by
  obtain ⟨bodyBytes, bodyTx, bodyCoherent⟩ := getBodyBytes_of_coherent coherent
  obtain ⟨authInfoBytes, authInfoTx, authInfoCoherent⟩ := getAuthInfoBytes_of_coherent bodyCoherent
  rw [bodyTx] at authInfoBytes
  simp only [getSignBytes, ne_eq, not_true_eq_false, if_false]
  exact ⟨by rw [bodyBytes, authInfoBytes]; rfl, authInfoCoherent⟩

/-- A call that returns with its error leaves the wrapper as it was. -/
theorem setSignatures_of_fail {Key : Type} (codec : MultiSignatureCodec) (pubKeyToAny : Option Key → Result Any)
    (signatures : List (SignatureV2 Key)) (w : Wrapper) (message : String)
    (failed : (setSignatures codec pubKeyToAny signatures w).1 = fail message) :
    (setSignatures codec pubKeyToAny signatures w).2 = w := by
  unfold setSignatures at failed ⊢
  cases looped : signerInfosOf codec pubKeyToAny signatures with
  | error fault => rfl
  | ok infos =>
      rw [looped] at failed
      exact absurd failed.symm (fail_ne_ok _ _)

theorem setMsgs_of_fail {Msg : Type} (newAnyWithValue : Msg → Result Any) (msgs : List Msg) (w : Wrapper)
    (message : String) (failed : (setMsgs newAnyWithValue msgs w).1 = fail message) :
    (setMsgs newAnyWithValue msgs w).2 = w := by
  unfold setMsgs at failed ⊢
  cases packed : msgs.mapM newAnyWithValue with
  | error fault => rfl
  | ok anys =>
      rw [packed] at failed
      exact absurd failed.symm (fail_ne_ok _ _)

theorem coherent_setMsgs {Msg : Type} (newAnyWithValue : Msg → Result Any) (msgs : List Msg) {w : Wrapper}
    (coherent : Coherent marshalBody marshalAuthInfo w) :
    Coherent marshalBody marshalAuthInfo (setMsgs newAnyWithValue msgs w).2 := by
  unfold setMsgs
  cases msgs.mapM newAnyWithValue with
  | error fault => exact coherent
  | ok anys => exact coherent_of_bodyBz_nil _ _ coherent rfl rfl rfl

theorem coherent_setSignatures {Key : Type} (codec : MultiSignatureCodec)
    (pubKeyToAny : Option Key → Result Any) (signatures : List (SignatureV2 Key)) {w : Wrapper}
    (coherent : Coherent marshalBody marshalAuthInfo w) :
    Coherent marshalBody marshalAuthInfo (setSignatures codec pubKeyToAny signatures w).2 := by
  unfold setSignatures
  cases signerInfosOf codec pubKeyToAny signatures with
  | error fault => exact coherent
  | ok infos => exact coherent_of_authInfoBz_nil _ _ coherent rfl rfl rfl

theorem coherent_getSignBytes (mode : SignMode) (data : SignerData) {w : Wrapper}
    (coherent : Coherent marshalBody marshalAuthInfo w) :
    Coherent marshalBody marshalAuthInfo (getSignBytes marshalBody marshalAuthInfo marshalSignDoc mode data w).2 := by
  unfold getSignBytes
  split_ifs with other
  · exact coherent
  · exact (getAuthInfoBytes_of_coherent (getBodyBytes_of_coherent coherent).2.2).2.2

/-- `afterCall` keeps the wrapper the call leaves. -/
theorem afterCall_eq_ok {α : Type} {call : Result α × Wrapper} {w : Wrapper} (returned : afterCall call = .ok w) :
    w = call.2 := by
  unfold afterCall at returned
  split at returned
  · exact absurd returned (panicWith_ne_ok _ _)
  · exact (Except.ok.inj returned).symm

variable {Msg Key : Type} (newAnyWithValue : Msg → Result Any) (codec : MultiSignatureCodec)
  (pubKeyToAny : Option Key → Result Any) (accAddressString : Bytes → String)

/-- Every call keeps coherence: each setter empties the cache of the part it
changes, and each getter fills a cache with the marshal of its part. -/
theorem coherent_step {w w' : Wrapper} (call : Call Msg Key) (coherent : Coherent marshalBody marshalAuthInfo w)
    (stepped : step marshalBody marshalAuthInfo marshalSignDoc newAnyWithValue codec pubKeyToAny
      accAddressString call w = .ok w') :
    Coherent marshalBody marshalAuthInfo w' := by
  cases call with
  | setMsgs msgs =>
      rw [afterCall_eq_ok stepped]
      exact coherent_setMsgs newAnyWithValue msgs coherent
  | setSignatures signatures =>
      rw [afterCall_eq_ok stepped]
      exact coherent_setSignatures codec pubKeyToAny signatures coherent
  | getSignBytes mode data =>
      rw [afterCall_eq_ok stepped]
      exact coherent_getSignBytes marshalSignDoc mode data coherent
  | getBodyBytes =>
      cases stepped
      exact (getBodyBytes_of_coherent coherent).2.2
  | getAuthInfoBytes =>
      cases stepped
      exact (getAuthInfoBytes_of_coherent coherent).2.2
  -- the setters of the body
  | setMemo | setTimeoutHeight | setExtensionOptions | setNonCriticalExtensionOptions =>
      cases stepped
      exact coherent_of_bodyBz_nil _ _ coherent rfl rfl rfl
  -- the setters of the fee
  | setGasLimit | setFeeAmount | setFeePayer | setFeeGranter =>
      cases stepped
      exact coherent_of_authInfoBz_nil _ _ coherent rfl rfl rfl

/-- Every run of calls keeps coherence. -/
theorem coherent_run {w w' : Wrapper} (calls : List (Call Msg Key))
    (coherent : Coherent marshalBody marshalAuthInfo w)
    (ran : run marshalBody marshalAuthInfo marshalSignDoc newAnyWithValue codec pubKeyToAny accAddressString
      calls w = .ok w') :
    Coherent marshalBody marshalAuthInfo w' := by
  induction calls generalizing w with
  | nil =>
      cases ran
      exact coherent
  | cons call rest induction =>
      rw [run, List.foldlM_cons] at ran
      obtain ⟨middle, stepped, ran⟩ := bind_eq_ok.mp ran
      exact induction (coherent_step marshalSignDoc newAnyWithValue codec pubKeyToAny accAddressString call
        coherent stepped) ran

end Coherence

/-! ## What every run reaches -/

section Results

variable {Msg Key : Type} (marshalBody : TxBody → Bytes) (marshalAuthInfo : AuthInfo → Bytes)
  (marshalSignDoc : SignDoc → Bytes) (newAnyWithValue : Msg → Result Any) (codec : MultiSignatureCodec)
  (pubKeyToAny : Option Key → Result Any) (accAddressString : Bytes → String)

/-- On every wrapper that a run of calls reaches from `newBuilder`, the getters
return the marshal of the current body and auth info, `SIGN_MODE_DIRECT` signs
those bytes, and a `SetSignatures` that returns an error leaves the wrapper as
it was. -/
theorem builder_caches_coherent (calls : List (Call Msg Key)) {w : Wrapper}
    (ran : run marshalBody marshalAuthInfo marshalSignDoc newAnyWithValue codec pubKeyToAny accAddressString
      calls newBuilder = .ok w) :
    (getBodyBytes marshalBody w).1 = marshalBody w.tx.body ∧
      (getAuthInfoBytes marshalAuthInfo w).1 = marshalAuthInfo w.tx.authInfo ∧
      (∀ data, (getSignBytes marshalBody marshalAuthInfo marshalSignDoc SignMode.signModeDirect data w).1 =
        .ok (marshalSignDoc ⟨marshalBody w.tx.body, marshalAuthInfo w.tx.authInfo, data.chainId,
          data.accountNumber⟩)) ∧
      ∀ signatures message, (setSignatures codec pubKeyToAny signatures w).1 = fail message →
        (setSignatures codec pubKeyToAny signatures w).2 = w := by
  have coherent := coherent_run marshalSignDoc newAnyWithValue codec pubKeyToAny accAddressString calls
    (coherent_newBuilder marshalBody marshalAuthInfo) ran
  exact ⟨(getBodyBytes_of_coherent coherent).1, (getAuthInfoBytes_of_coherent coherent).1,
    fun data => (getSignBytes_of_coherent marshalSignDoc coherent data).1,
    fun signatures message => setSignatures_of_fail codec pubKeyToAny signatures w message⟩

/-- A memo set, its body read, then the gas limit set: the sign bytes are those
of the new body and of the new auth info. -/
theorem builder_caches_coherent_memo :
    run (fun _ => [1]) (fun _ => [2]) (fun doc => doc.bodyBytes ++ doc.authInfoBytes)
        (fun (_ : Unit) => .ok ⟨"", []⟩) escapeCodec (fun (_ : Option Unit) => fail "no key") (fun _ => "")
        [.setMemo "memo", .getBodyBytes, .setGasLimit 200000] newBuilder =
      .ok (setGasLimit 200000 (getBodyBytes (fun _ => [1]) (setMemo "memo" newBuilder)).2) ∧
    (getSignBytes (fun _ => [1]) (fun _ => [2]) (fun doc => doc.bodyBytes ++ doc.authInfoBytes)
        SignMode.signModeDirect ⟨"chain", 0, 0⟩
        (setGasLimit 200000 (getBodyBytes (fun _ => [1]) (setMemo "memo" newBuilder)).2)).1 = .ok [1, 2] := by
  have ran : run (fun _ => [1]) (fun _ => [2]) (fun doc => doc.bodyBytes ++ doc.authInfoBytes)
      (fun (_ : Unit) => .ok ⟨"", []⟩) escapeCodec (fun (_ : Option Unit) => fail "no key") (fun _ => "")
      [.setMemo "memo", .getBodyBytes, .setGasLimit 200000] newBuilder =
      .ok (setGasLimit 200000 (getBodyBytes (fun _ => [1]) (setMemo "memo" newBuilder)).2) := rfl
  exact ⟨ran, (builder_caches_coherent _ _ _ _ _ _ _ _ ran).2.2.1 ⟨"chain", 0, 0⟩⟩

end Results

end CoreSdk.Tx
