import CoreSdk.Go.Retry
import CoreSdk.Types.Errors
import CoreSdk.Common.SubArray

/-!
# Sending messages in batches

A transcription of `baseClient.SendBatch` of `client/base_client.go`, with
`ValidateTxSize`. After checking the messages, `SendBatch` runs a closure under
`retry.Do` with three attempts. The closure splits the messages into segments
of `batch` messages, and builds and broadcasts one transaction per segment,
collecting the results in `rs`. When a built transaction is too large, it drops
the segments already sent from `msgs`, halves `batch` and fails with
`TxTooLarge`. A failed build or broadcast fails the closure with that error.
Both `TxTooLarge` and `InvalidSequence` are retried.

The builder and the node are the parameters `buildTx` and `broadcastTx`, given
the number of transactions built before (so that each call may answer
differently) and the chunk or the transaction bytes. `Batching` holds the
closure's captured variables, that count, and the chunks of the transactions
the node accepted: what was sent, which the source does not record.

Two facts shape what follows. The error of `retry.Do` is discarded: once the
messages pass `ValidateBasic`, `SendBatch` returns a nil error whatever
happened to them. And a retried `InvalidSequence` restarts the segments from
the first message, also those the node has already accepted. The deferred
`CatchPanic` would turn a panic into a nil error; no run of the closure here
panics (`retryableFunc_spec`), so the model lets a panic through.
-/

namespace CoreSdk.Client

open Go CoreSdk.Types CoreSdk.Common

set_option autoImplicit false

def tryThreshold : Nat := 3
def maxBatch : Int := 100

/-- `ValidateTxSize`; its error result is always nil, and is left out. -/
def validateTxSize (txSizeLimit : UInt64) (txSize : Int) : Bool :=
  !decide (UInt64.ofInt txSize > txSizeLimit)

/-- `retryIf`. Every error the closure returns is an `sdktypes.Error` (the
builder's, the node's or `GetError`'s), so the type assertion succeeds and the
code decides. -/
def retryIf (err : SdkError) : Bool := err.code == invalidSequence || err.code == txTooLarge

/-- The state `SendBatch`'s closure works on. -/
structure Batching (Msg Res : Type) where
  msgs : List Msg
  batch : Int
  rs : List Res
  built : Nat
  sent : List (List Msg)

section Model

variable {Msg Res : Type} (buildTx : Nat → List Msg → Except SdkError (List UInt8))
  (broadcastTx : Nat → List UInt8 → Except SdkError Res) (txSizeLimit : UInt64)

/-- The loop `for i, ms := range common.SubArray(batch, msgs)` of the closure,
from the segment with index `i` on. -/
def sendSegments (s : Batching Msg Res) (i : Nat) :
    List (List Msg) → Result (Batching Msg Res × Option SdkError)
  | [] => pure (s, none)
  | mss :: rest => do
      let s' := { s with built := s.built + 1 }
      match buildTx s.built mss with
      | .error err => pure (s', some err)
      | .ok txByte =>
          if validateTxSize txSizeLimit txByte.length then
            match broadcastTx s.built txByte with
            | .error err => pure (s', some err)
            | .ok res =>
                sendSegments { s' with rs := s'.rs ++ [res], sent := s'.sent ++ [mss] } (i + 1) rest
          else do
            -- filter out transactions that have been sent
            let msgs ← sliceFrom s'.msgs ((i : Int) * s'.batch)
            -- reset the maximum number of msg in each transaction
            pure ({ s' with msgs, batch := s'.batch.tdiv 2 },
              some (getError rootCodespace txTooLarge []))

/-- `retryableFunc`. -/
def retryableFunc (s : Batching Msg Res) : Result (Batching Msg Res × Option SdkError) := do
  let segments ← subArray s.batch s.msgs
  sendSegments buildTx broadcastTx txSizeLimit s 0 segments

def initialBatching (msgs : List Msg) : Batching Msg Res :=
  { msgs, batch := maxBatch, rs := [], built := 0, sent := [] }

/-- `retry.Do(retryableFunc, Attempts(tryThreshold), RetryIf(retryIf), ...)`. -/
def sendLoop (msgs : List Msg) : Result (Batching Msg Res × Option SdkError) :=
  retryDo retryIf (retryableFunc buildTx broadcastTx txSizeLimit) tryThreshold (initialBatching msgs)

/-- `SendBatch`, with `ValidateBasic` as the parameter `validateBasic`. -/
def sendBatch (validateBasic : Msg → Option GoError) (msgs : List Msg) :
    Result (List Res × Option SdkError) :=
  if msgs.isEmpty then pure ([], some (wrapf "must have at least one message in list"))
  else
    match msgs.findSome? validateBasic with
    | some err => pure ([], some (wrap err))
    | none => do
        let (s, _) ← sendLoop buildTx broadcastTx txSizeLimit msgs
        pure (s.rs, none)

end Model

theorem sendBatch_resends_after_invalid_sequence :
    sendBatch (fun _ _ => .ok [0])
        (fun k _ => if k = 1 then .error ⟨rootCodespace, invalidSequence, "invalid sequence"⟩
          else .ok k)
        10 (fun (_ : Nat) => none) (List.range 101) = .ok ([0, 2, 3], none) ∧
      (sendLoop (fun _ _ => .ok [0])
        (fun k _ => if k = 1 then .error ⟨rootCodespace, invalidSequence, "invalid sequence"⟩
          else .ok k)
        10 (List.range 101)).map (fun result => result.1.sent) =
        .ok [List.range 100, List.range 100, [100]] := by
  constructor <;> rfl

theorem sendBatch_drops_failed_broadcast :
    sendBatch (fun _ _ => .ok [0])
        (fun _ _ => (.error ⟨rootCodespace, 4, "unauthorized"⟩ : Except SdkError Nat))
        10 (fun (_ : Nat) => none) [0] = .ok ([], none) ∧
      (sendLoop (fun _ _ => .ok [0])
        (fun _ _ => (.error ⟨rootCodespace, 4, "unauthorized"⟩ : Except SdkError Nat))
        10 [0]).map (fun result => (result.1.sent, result.2)) =
        .ok ([], some ⟨rootCodespace, 4, "unauthorized"⟩) := by
  constructor <;> rfl

/-! ## Runs without retried failures of the builder or the node -/

/-- What one run of the closure guarantees about the messages `orig`: results
and accepted chunks stay paired, the accepted messages are a prefix of `orig`,
all of it when the run succeeds, and a retried run resumes at the first
message not accepted, with half the batch. -/
structure RunPost {Msg Res : Type} (orig : List Msg) (batch : Int) (s : Batching Msg Res)
    (err : Option SdkError) : Prop where
  aligned : s.rs.length = s.sent.length
  sentPrefix : s.sent.flatten <+: orig
  complete : err = none → s.sent.flatten = orig
  resumes : ∀ e, err = some e → retryIf e = true →
    s.sent.flatten ++ s.msgs = orig ∧ s.batch = batch.tdiv 2

section Run

variable {Msg Res : Type} (buildTx : Nat → List Msg → Except SdkError (List UInt8))
  (broadcastTx : Nat → List UInt8 → Except SdkError Res) (txSizeLimit : UInt64)
  (buildsFinal : ∀ k mss e, buildTx k mss = .error e → retryIf e = false)
  (broadcastsFinal : ∀ k tx e, broadcastTx k tx = .error e → retryIf e = false)

theorem retryIf_txTooLarge : retryIf (getError rootCodespace txTooLarge []) = true := by
  rw [getError_txTooLarge]
  rfl

/-- A run that stops at an error that is not retried. -/
theorem runPost_of_final {orig base xs : List Msg} {batch : Int} (whole : base ++ xs = orig)
    (s : Batching Msg Res) (k : Nat) (sent : s.sent.flatten = base ++ xs.take k)
    (aligned : s.rs.length = s.sent.length) (e : SdkError) (final : retryIf e = false) :
    RunPost orig batch s (some e) where
  aligned := aligned
  sentPrefix := by
    rw [sent, ← whole]
    exact (List.prefix_append_right_inj base).mpr (List.take_prefix k xs)
  complete := fun succeeded => by cases succeeded
  resumes := fun e' same retried => by
    cases same
    rw [final] at retried
    cases retried

include buildsFinal broadcastsFinal in
/-- The segment loop, from segment `i` of `xs` on, where the chunks accepted
before `i` follow the messages `base` accepted in earlier runs. -/
theorem sendSegments_spec {orig base xs : List Msg} (whole : base ++ xs = orig) (b : Nat)
    (positive : 0 < b) (n : Nat) :
    ∀ i (s : Batching Msg Res), i + n = segmentCount b xs.length → s.msgs = xs → s.batch = b →
      s.sent.flatten = base ++ xs.take (i * b) → s.rs.length = s.sent.length →
      ∃ s' err, sendSegments buildTx broadcastTx txSizeLimit s i
          ((List.range' i n).map (segmentAt b xs)) = .ok (s', err) ∧ RunPost orig b s' err := by
  induction n with
  | zero =>
      intro i s last _ _ sent aligned
      -- every segment accepted: all of `xs` went out
      refine ⟨s, none, rfl, aligned, ?_, fun _ => ?_, fun e same => by cases same⟩
      all_goals
        rw [sent, List.take_of_length_le (by
          have := le_segmentCount_mul b xs.length positive
          rw [Nat.add_zero] at last
          rw [last]
          exact this), whole]
  | succ n induction =>
      intro i s last msgs batch sent aligned
      have inside : i < segmentCount b xs.length := by omega
      simp only [List.range'_succ, List.map_cons, sendSegments]
      cases build : buildTx s.built (segmentAt b xs i) with
      | error e =>
          exact ⟨_, some e, rfl, runPost_of_final whole { s with built := s.built + 1 } (i * b)
            sent aligned e (buildsFinal _ _ e build)⟩
      | ok txByte =>
          simp only [bind_pure_comp]
          by_cases fits : validateTxSize txSizeLimit txByte.length = true
          · rw [if_pos fits]
            cases broadcast : broadcastTx s.built txByte with
            | error e =>
                exact ⟨_, some e, rfl, runPost_of_final whole { s with built := s.built + 1 }
                  (i * b) sent aligned e (broadcastsFinal _ _ e broadcast)⟩
            | ok res =>
                -- the chunk is accepted, and the loop goes on with the next one
                apply induction (i + 1)
                  { s with built := s.built + 1, rs := s.rs ++ [res], sent := s.sent ++ [segmentAt b xs i] }
                  (by omega) msgs batch
                · simp only [List.flatten_append, List.flatten_singleton, sent, segmentAt,
                    List.append_assoc, Nat.succ_mul, List.take_add]
                · simp [aligned]
          · rw [if_neg fits]
            have start : i * b ≤ xs.length := by
              rcases Nat.eq_zero_or_pos xs.length with empty | nonempty
              · have none : (b - 1) / b = 0 := Nat.div_eq_of_lt (by omega)
                have one : segmentCount b xs.length = 1 := by simp [segmentCount, empty, none]
                have : i = 0 := by omega
                simp [this]
              · exact Nat.le_of_lt (segment_start_lt b xs.length positive nonempty i inside)
            have cut : sliceFrom xs ((i : Int) * (b : Int)) = .ok (xs.drop (i * b)) := by
              rw [← Int.natCast_mul]
              exact sliceFrom_natCast_of_le xs (i * b) start
            simp only [msgs, batch, cut]
            -- too large: the accepted chunks are dropped from `msgs` and the run is retried
            refine ⟨_, _, rfl, aligned, ?_, fun succeeded => (by cases succeeded), ?_⟩
            · rw [sent, ← whole]
              exact (List.prefix_append_right_inj base).mpr (List.take_prefix _ xs)
            · intro e same _
              refine ⟨?_, rfl⟩
              rw [sent, List.append_assoc, List.take_append_drop, whole]

include buildsFinal broadcastsFinal in
/-- One run of the closure from a state that tracks `orig`. -/
theorem retryableFunc_spec (orig : List Msg) (s : Batching Msg Res)
    (tracks : s.sent.flatten ++ s.msgs = orig) (aligned : s.rs.length = s.sent.length)
    (positive : 0 < s.batch) :
    ∃ s' err, retryableFunc buildTx broadcastTx txSizeLimit s = .ok (s', err) ∧
      RunPost orig s.batch s' err := by
  obtain ⟨b, isNat⟩ : ∃ b : Nat, s.batch = b := ⟨s.batch.toNat, (Int.toNat_of_nonneg (by omega)).symm⟩
  have bPositive : 0 < b := by omega
  obtain ⟨s', err, run, post⟩ := sendSegments_spec buildTx broadcastTx txSizeLimit buildsFinal
    broadcastsFinal tracks b bPositive (segmentCount b s.msgs.length) 0 s (Nat.zero_add _) rfl
    isNat (by simp) aligned
  refine ⟨s', err, ?_, isNat ▸ post⟩
  rw [retryableFunc, isNat, subArray_eq b bPositive, ok_bind, List.range_eq_range']
  exact run

/-- Halving a batch that allowed `attempts + 1` runs leaves one for `attempts`. -/
theorem halved_batch_large (attempts : Nat) (batch : Int)
    (large : ((2 ^ (attempts + 1) : Nat) : Int) ≤ 2 * batch) (more : 0 < attempts) :
    ((2 ^ attempts : Nat) : Int) ≤ 2 * batch.tdiv 2 := by
  obtain ⟨c, rfl⟩ : ∃ c, attempts = c + 1 := ⟨attempts - 1, by omega⟩
  have power := Nat.two_pow_pos c
  rw [Nat.pow_succ, Nat.pow_succ] at large
  rw [Nat.pow_succ, Int.tdiv_eq_ediv_of_nonneg (by omega)]
  omega

include buildsFinal broadcastsFinal in
/-- The retry loop: by `retryDo_spec`, with the state tracking the messages and
a batch large enough for the runs left. -/
theorem sendLoop_spec (msgs : List Msg) :
    ∃ s err, sendLoop buildTx broadcastTx txSizeLimit msgs = .ok (s, err) ∧
      s.rs.length = s.sent.length ∧ s.sent.flatten <+: msgs ∧
      (err = none → s.sent.flatten = msgs) := by
  have initial : (initialBatching msgs : Batching Msg Res).sent.flatten ++
      (initialBatching msgs : Batching Msg Res).msgs = msgs ∧
      (initialBatching msgs : Batching Msg Res).rs.length =
        (initialBatching msgs : Batching Msg Res).sent.length ∧
      ((2 ^ (2 + 1) : Nat) : Int) ≤ 2 * (initialBatching msgs : Batching Msg Res).batch :=
    ⟨rfl, rfl, show ((2 ^ (2 + 1) : Nat) : Int) ≤ 2 * maxBatch by decide⟩
  obtain ⟨s, err, run, aligned, sentPrefix, complete⟩ :=
    retryDo_spec retryIf (retryableFunc buildTx broadcastTx txSizeLimit)
      (fun attempts s => s.sent.flatten ++ s.msgs = msgs ∧ s.rs.length = s.sent.length ∧
        ((2 ^ attempts : Nat) : Int) ≤ 2 * s.batch)
      (fun s err => s.rs.length = s.sent.length ∧ s.sent.flatten <+: msgs ∧
        (err = none → s.sent.flatten = msgs))
      (by
        rintro attempts s ⟨tracks, aligned, large⟩
        have positive : 0 < s.batch := by
          have power := Nat.two_pow_pos attempts
          rw [Nat.pow_succ] at large
          omega
        obtain ⟨s', err, run, post⟩ :=
          retryableFunc_spec buildTx broadcastTx txSizeLimit buildsFinal broadcastsFinal msgs s
            tracks aligned positive
        refine ⟨s', err, run, ⟨post.aligned, post.sentPrefix, post.complete⟩, ?_⟩
        intro e same retried more
        obtain ⟨tracks', halved⟩ := post.resumes e same retried
        exact ⟨tracks', post.aligned, halved ▸ halved_batch_large attempts s.batch large more⟩)
      2 (initialBatching msgs) initial
  exact ⟨s, err, run, aligned, sentPrefix, complete⟩

include buildsFinal broadcastsFinal in
theorem sendBatch_accepts_prefix_once (validateBasic : Msg → Option GoError) (msgs : List Msg)
    (nonempty : msgs ≠ []) (valid : ∀ m ∈ msgs, validateBasic m = none) :
    ∃ s err, sendLoop buildTx broadcastTx txSizeLimit msgs = .ok (s, err) ∧
      sendBatch buildTx broadcastTx txSizeLimit validateBasic msgs = .ok (s.rs, none) ∧
      s.rs.length = s.sent.length ∧ s.sent.flatten <+: msgs ∧
      (err = none → s.sent.flatten = msgs) := by
  obtain ⟨s, err, run, aligned, sentPrefix, complete⟩ :=
    sendLoop_spec buildTx broadcastTx txSizeLimit buildsFinal broadcastsFinal msgs
  have notEmpty : msgs.isEmpty = false := List.isEmpty_eq_false_iff.mpr nonempty
  have allValid : msgs.findSome? validateBasic = none := List.findSome?_eq_none_iff.mpr valid
  refine ⟨s, err, run, ?_, aligned, sentPrefix, complete⟩
  rw [sendBatch, notEmpty, allValid, run]
  rfl

end Run

/-- 101 messages, a byte each in the transaction, under a limit of 60 bytes: the
first transaction of 100 is too large, and the retry sends the messages in
transactions of 50, 50 and 1. -/
theorem sendBatch_accepts_prefix_once_split :
    (∀ k mss e, (fun (_ : Nat) (mss : List Nat) => (.ok (List.replicate mss.length 0) : Except SdkError (List UInt8)))
        k mss = .error e → retryIf e = false) ∧
    (∀ k tx e, (fun (k : Nat) (_ : List UInt8) => (.ok k : Except SdkError Nat)) k tx = .error e →
        retryIf e = false) ∧
    List.range 101 ≠ [] ∧ (∀ m ∈ List.range 101, (fun (_ : Nat) => (none : Option GoError)) m = none) ∧
    (∃ s err, sendLoop (fun _ mss => .ok (List.replicate mss.length 0)) (fun k _ => .ok k) 60 (List.range 101) =
        .ok (s, err) ∧
      sendBatch (fun _ mss => .ok (List.replicate mss.length 0)) (fun k _ => .ok k) 60 (fun _ => none)
        (List.range 101) = .ok (s.rs, none) ∧
      s.rs.length = s.sent.length ∧ s.sent.flatten <+: List.range 101 ∧
      (err = none → s.sent.flatten = List.range 101)) ∧
    (sendLoop (fun _ mss => .ok (List.replicate mss.length 0)) (fun k _ => .ok k) 60 (List.range 101)).map
        (fun result => (result.1.batch, result.1.sent.map List.length)) = .ok (50, [50, 50, 1]) := by
  have buildsFinal : ∀ k mss e, (fun (_ : Nat) (mss : List Nat) =>
      (.ok (List.replicate mss.length 0) : Except SdkError (List UInt8))) k mss = .error e → retryIf e = false := by
    intro k mss e failed
    cases failed
  have broadcastsFinal : ∀ k tx e, (fun (k : Nat) (_ : List UInt8) =>
      (.ok k : Except SdkError Nat)) k tx = .error e → retryIf e = false := by
    intro k tx e failed
    cases failed
  have nonempty : List.range 101 ≠ [] := by simp
  have valid : ∀ m ∈ List.range 101, (fun (_ : Nat) => (none : Option GoError)) m = none := by simp
  exact ⟨buildsFinal, broadcastsFinal, nonempty, valid,
    sendBatch_accepts_prefix_once _ _ 60 buildsFinal broadcastsFinal _ (List.range 101) nonempty valid, rfl⟩

end CoreSdk.Client
