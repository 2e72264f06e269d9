import Mathlib.Data.List.Infix

/-!
# SDK errors

A transcription of the parts of `types/errors.go` that the client reads: the
one implementation `sdkError` of the `Error` interface, the registry of root
errors filled at start-up, `Wrap`, `Wrapf` and `GetError`.

A Go `error` value is either an `sdkError` or some other error, known only by
its message; `GoError` keeps that distinction because `Wrap` keeps the code of
the first and files the second under `errInvalid`.
-/

namespace CoreSdk.Types

set_option autoImplicit false

/-- `sdkError`. -/
structure SdkError where
  codespace : String
  code : UInt32
  desc : String
  deriving DecidableEq, Repr

/-- A non-nil Go `error` value. -/
inductive GoError where
  | sdk (err : SdkError)
  | other (message : String)
  deriving DecidableEq, Repr

/-- `err.Error()`. -/
def GoError.error : GoError → String
  | .sdk err => err.desc
  | .other message => message

def rootCodespace : String := "sdk"

def invalidSequence : UInt32 := 3
def txTooLarge : UInt32 := 21
def wrongSequence : UInt32 := 32

/-- The codes and descriptions of the root errors `register`ed in the codespace
`"sdk"`, in the order of the source. -/
def rootErrors : List (UInt32 × String) :=
  [(0, "success"), (1, "internal"), (2, "tx parse error"), (3, "invalid sequence"),
   (4, "unauthorized"), (5, "insufficient funds"), (6, "unknown request"),
   (7, "invalid address"), (8, "invalid pubkey"), (9, "unknown address"),
   (10, "invalid coins"), (11, "out of gas"), (12, "memo too large"),
   (13, "insufficient fee"), (14, "maximum number of signatures exceeded"),
   (15, "no signatures supplied"), (16, "failed to marshal JSON bytes"),
   (17, "failed to unmarshal JSON bytes"), (18, "invalid request"),
   (19, "tx already in mempool"), (20, "mempool is full"), (21, "tx too large"),
   (22, "key not found"), (23, "invalid account password"),
   (24, "tx intended signer does not match the given signer"),
   (25, "invalid gas adjustment"), (26, "invalid height"), (27, "invalid version"),
   (28, "invalid chain-id"), (29, "invalid type"), (30, "tx timeout height"),
   (31, "unknown extension options"), (32, "incorrect account sequence"),
   (33, "failed packing protobuf message to Any"),
   (34, "failed unpacking protobuf message from Any"), (35, "internal logic error"),
   (36, "conflict"), (37, "feature not supported"), (38, "not found"),
   (39, "Internal IO error"), (40, "error in app.toml"), (111222, "panic")]

/-- `errInvalid`, the code of every error that is not an `sdkError`. -/
def errInvalid : SdkError := ⟨rootCodespace, 999999, "sdk check error"⟩

/-- `usedCodes`: every registered error, looked up by codespace and code. -/
def usedCodes (codespace : String) (code : UInt32) : Option SdkError :=
  if code = errInvalid.code ∧ codespace = rootCodespace then some errInvalid
  else if codespace = rootCodespace then
    (rootErrors.find? (fun entry => entry.1 = code)).map fun entry => ⟨rootCodespace, entry.1, entry.2⟩
  else none

def wrongSeqMsg : String := "account sequence mismatch, expected"

/-- `strings.Contains`. -/
def containsStr (s substr : String) : Bool := decide (substr.toList <:+: s.toList)

/-- `Wrap` of a non-nil error. -/
def wrap (err : GoError) : SdkError :=
  if containsStr err.error wrongSeqMsg then ⟨rootCodespace, wrongSequence, err.error⟩
  else
    match err with
    | .sdk e => ⟨e.codespace, e.code, err.error⟩
    | .other _ => ⟨errInvalid.codespace, errInvalid.code, err.error⟩

/-- `Wrapf` with a format that has no verbs. -/
def wrapf (desc : String) : SdkError := wrap (.other desc)

/-- `sdkError.WrapfError`. -/
def SdkError.wrapfError (e : SdkError) (desc : String) : SdkError :=
  { e with desc := e.desc ++ ": " ++ desc }

/-- `GetError`. -/
def getError (codespace : String) (code : UInt32) (log : List String) : SdkError :=
  match usedCodes codespace code with
  | some err => err.wrapfError (".".intercalate log)
  | none => wrap (.other (",".intercalate log))

theorem getError_txTooLarge :
    getError rootCodespace txTooLarge [] = ⟨rootCodespace, txTooLarge, "tx too large: "⟩ := by
  decide

end CoreSdk.Types
