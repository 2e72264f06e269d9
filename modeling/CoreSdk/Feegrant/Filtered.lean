import CoreSdk.Feegrant.Allowance
import CoreSdk.Store.Gas

/-!
# Allowances filtered by message type

`AllowedMsgAllowance` (`feegrant/filtered_fee.go`) wraps another allowance and
pays fees only for transactions whose messages all have a type URL on its list.
Its `Accept` charges `gasCostPerIteration` on the context's gas meter for each
listed type, as it builds the map of them, and again for each message it checks,
up to the first message whose type is not listed. Only then does it read the
wrapped allowance and call its `Accept` with the same context and messages,
which charges the same meter and updates in place the value cached in the
`Any`, whatever it returns.

So a transaction with a message of a type not listed is refused before the wrapped
allowance is read, and the allowance is left as it was; any other transaction
gets what the wrapped allowance returns (a nil `Any` panics when it is read). The gas charged is ten for each listed
type and for each message checked (`accept_filters_msgs`). The meter's `ConsumeGas`
panics are not recovered here (`chargeGas`), so a meter that runs out of gas makes
`Accept` panic.
-/

namespace CoreSdk.Feegrant

open Go CoreSdk.Store CoreSdk.Types

set_option autoImplicit false

/-- `gasCostPerIteration`. -/
def gasCostPerIteration : Gas := 10

/-- The `Allowance` field, a `*types.Any`: the nil pointer, an `Any` whose cached
value is not a `FeeAllowanceI`, or one that caches an allowance. -/
inductive AllowanceAny (A : Type) where
  | nil
  | other
  | cached (allowance : A)
  deriving DecidableEq, Repr

/-- `AllowedMsgAllowance`: the wrapped allowance's `Any` and the type URLs it allows. -/
structure AllowedMsgAllowance (A : Type) where
  allowance : AllowanceAny A
  allowedMessages : List String
  deriving DecidableEq, Repr

namespace AllowedMsgAllowance

variable {M : Type} (consume : M → Gas → String → M × Option GasError)

/-- `ctx.GasMeter().ConsumeGas(gasCostPerIteration, "check msg")`, its panic not recovered. -/
def consumeCheckGas (g : M) : Result M := chargeGas consume g gasCostPerIteration "check msg"

/-- One turn of `allowedMsgsToMap`: gas for the type, then the type set in the map. -/
def allowedMsgsToMapStep (acc : M × List String) (msg : String) : Result (M × List String) := do
  let g ← consumeCheckGas consume acc.1
  pure (g, acc.2 ++ [msg])

/-- `allowedMsgsToMap`: the meter after it, and the keys the map holds, each set to `true`. -/
def allowedMsgsToMap (g : M) (allowedMessages : List String) : Result (M × List String) :=
  allowedMessages.foldlM (allowedMsgsToMapStep consume) (g, [])

/-- The loop of `allMsgTypesAllowed` over the messages, given by their type URLs
`sdk.MsgTypeURL(msg)`; a type missing from the map reads as `false`. -/
def allMsgTypesAllowedLoop (msgsMap : List String) : M → List String → Result (M × Bool)
  | g, [] => .ok (g, true)
  | g, url :: urls => do
      let g ← consumeCheckGas consume g
      if !msgsMap.contains url then return (g, false)
      allMsgTypesAllowedLoop msgsMap g urls

/-- `allMsgTypesAllowed`. -/
def allMsgTypesAllowed (allowedMessages : List String) (g : M) (msgs : List String) : Result (M × Bool) := do
  let keys ← allowedMsgsToMap consume g allowedMessages
  allMsgTypesAllowedLoop consume keys.2 keys.1 msgs

/-- The error of a transaction with a message whose type is not listed. -/
def errMsgNotAllowed : GoError :=
  .sdk (wrap (.other "message not allowed : message does not exist in allowed messages"))

/-- The error of `GetAllowance` on a cached value that is not an allowance. -/
def errNoAllowance : GoError :=
  .sdk (wrap (.other "message not allowed : failed to get allowance"))

/-- The wrapped allowance's `Accept(ctx, fee, msgs)`: on the context's meter and
block time, the fee and the messages, the allowance as it is left, the meter
after it, `remove` and the error. -/
abbrev InnerAccept (A M : Type) : Type :=
  A → M → Time → Coins → List String → Result (A × M × Bool × Option GoError)

variable {A : Type} (acceptInner : InnerAccept A M)

/-- `AllowedMsgAllowance.Accept`: the meter, the allowance as it is left, `remove`
and the error. `SetAllowance` packs a protobuf message again and does not fail. -/
def accept (a : AllowedMsgAllowance A) (g : M) (blockTime : Time) (fee : Coins) (msgs : List String) :
    Result (M × AllowedMsgAllowance A × Bool × Option GoError) := do
  let checked ← allMsgTypesAllowed consume a.allowedMessages g msgs
  if !checked.2 then return (checked.1, a, false, some errMsgNotAllowed)
  match a.allowance with
  -- `GetCachedValue` reads a field of the nil `Any`
  | .nil => panicWith nilDereference
  | .other => return (checked.1, a, false, some errNoAllowance)
  | .cached allowance =>
      -- the wrapped `Accept` updates the cached allowance in place, whatever it returns
      let result ← acceptInner allowance checked.1 blockTime fee msgs
      return (result.2.1, { a with allowance := .cached result.1 }, result.2.2.1, result.2.2.2)

/-! ### Gas for each listed type and each message checked -/

section Charges

-- the gas a meter has counted and the most it can count, kept by the calls that return
variable (count capacity : M → Nat)
  (consumes : ∀ g g', consume g gasCostPerIteration "check msg" = (g', none) →
    count g' = count g + 10 ∧ capacity g' = capacity g)
  (charges : ∀ g, count g + 10 ≤ capacity g →
    ∃ g', consume g gasCostPerIteration "check msg" = (g', none))
include consumes charges

theorem consumeCheckGas_of_room {g : M} (room : count g + 10 ≤ capacity g) :
    ∃ g', consumeCheckGas consume g = .ok g' ∧ count g' = count g + 10 ∧ capacity g' = capacity g := by
  obtain ⟨g', quiet⟩ := charges g room
  exact ⟨g', by rw [consumeCheckGas, chargeGas_of_quiet quiet], consumes g g' quiet⟩

/-- Building the map charges once for each listed type, and sets each of them. -/
theorem foldlM_allowedMsgsToMapStep (allowed : List String) : ∀ (g : M) (keys : List String),
    count g + 10 * allowed.length ≤ capacity g →
    ∃ g', allowed.foldlM (allowedMsgsToMapStep consume) (g, keys) = .ok (g', keys ++ allowed) ∧
      count g' = count g + 10 * allowed.length ∧ capacity g' = capacity g := by
  induction allowed with
  | nil =>
    intro g keys _
    exact ⟨g, by rw [List.foldlM_nil, List.append_nil]; rfl, by rw [List.length_nil, Nat.mul_zero, Nat.add_zero],
      rfl⟩
  | cons msg allowed induction =>
    intro g keys room
    rw [List.length_cons, Nat.mul_succ] at room
    obtain ⟨g₁, charged, counted, kept⟩ := consumeCheckGas_of_room consume count capacity consumes charges
      (show count g + 10 ≤ capacity g by omega)
    obtain ⟨g', loop, total, keptAll⟩ := induction g₁ (keys ++ [msg]) (by omega)
    refine ⟨g', ?_, ?_, by rw [keptAll, kept]⟩
    · rw [List.foldlM_cons, allowedMsgsToMapStep, charged, ok_bind, pure_eq_ok, ok_bind, loop,
        List.append_assoc, List.singleton_append]
    · rw [total, counted, List.length_cons, Nat.mul_succ]
      omega

theorem allowedMsgsToMap_of_room (g : M) (allowed : List String)
    (room : count g + 10 * allowed.length ≤ capacity g) :
    ∃ g', allowedMsgsToMap consume g allowed = .ok (g', allowed) ∧
      count g' = count g + 10 * allowed.length ∧ capacity g' = capacity g := by
  obtain ⟨g', loop, counted⟩ := foldlM_allowedMsgsToMapStep consume count capacity consumes charges allowed g [] room
  exact ⟨g', by rw [allowedMsgsToMap, loop, List.nil_append], counted⟩

/-- Messages whose types are all listed are each checked once, and pass. -/
theorem allMsgTypesAllowedLoop_of_listed (keys : List String) (urls : List String)
    (listed : ∀ url ∈ urls, url ∈ keys) : ∀ g : M,
    count g + 10 * urls.length ≤ capacity g →
    ∃ g', allMsgTypesAllowedLoop consume keys g urls = .ok (g', true) ∧
      count g' = count g + 10 * urls.length := by
  induction urls with
  | nil =>
    intro g _
    exact ⟨g, by rw [allMsgTypesAllowedLoop], by rw [List.length_nil, Nat.mul_zero, Nat.add_zero]⟩
  | cons url urls induction =>
    intro g room
    rw [List.length_cons, Nat.mul_succ] at room
    obtain ⟨g₁, charged, counted, kept⟩ := consumeCheckGas_of_room consume count capacity consumes charges
      (show count g + 10 ≤ capacity g by omega)
    obtain ⟨g', loop, total⟩ := induction (fun later member => listed later (List.mem_cons_of_mem url member)) g₁
      (by omega)
    have present : keys.contains url = true := List.contains_iff_mem.mpr (listed url List.mem_cons_self)
    refine ⟨g', ?_, ?_⟩
    · rw [allMsgTypesAllowedLoop, charged, ok_bind, present, Bool.not_true, if_neg Bool.false_ne_true, loop]
    · rw [total, counted, List.length_cons, Nat.mul_succ]
      omega

/-- The check stops at the first message whose type is not listed, charged too. -/
theorem allMsgTypesAllowedLoop_of_unlisted (keys : List String) (url : String) (rest : List String)
    (unlisted : url ∉ keys) (front : List String) (listed : ∀ url ∈ front, url ∈ keys) : ∀ g : M,
    count g + 10 * (front.length + 1) ≤ capacity g →
    ∃ g', allMsgTypesAllowedLoop consume keys g (front ++ url :: rest) = .ok (g', false) ∧
      count g' = count g + 10 * (front.length + 1) := by
  induction front with
  | nil =>
    intro g room
    obtain ⟨g', charged, counted, -⟩ := consumeCheckGas_of_room consume count capacity consumes charges
      (show count g + 10 ≤ capacity g by simpa using room)
    have absent : keys.contains url = false := by
      rw [Bool.eq_false_iff, ne_eq, List.contains_iff_mem]
      exact unlisted
    refine ⟨g', ?_, by rw [counted, List.length_nil]⟩
    rw [List.nil_append, allMsgTypesAllowedLoop, charged, ok_bind, absent, Bool.not_false, if_pos rfl]
    rfl
  | cons first front induction =>
    intro g room
    rw [List.length_cons, Nat.mul_succ] at room
    obtain ⟨g₁, charged, counted, kept⟩ := consumeCheckGas_of_room consume count capacity consumes charges
      (show count g + 10 ≤ capacity g by omega)
    obtain ⟨g', loop, total⟩ := induction (fun later member => listed later (List.mem_cons_of_mem first member)) g₁
      (by rw [kept, counted]; omega)
    have present : keys.contains first = true := List.contains_iff_mem.mpr (listed first List.mem_cons_self)
    refine ⟨g', ?_, ?_⟩
    · rw [List.cons_append, allMsgTypesAllowedLoop, charged, ok_bind, present, Bool.not_true,
        if_neg Bool.false_ne_true, loop]
    · rw [total, counted, List.length_cons, Nat.mul_succ]
      omega

/-- A message whose type is not listed: refused once the checks reach it, before
the wrapped allowance is read, and the allowance is left as it was. -/
theorem accept_of_unlisted (a : AllowedMsgAllowance A) (g : M) (blockTime : Time) (fee : Coins)
    (front : List String) (url : String) (rest : List String)
    (listed : ∀ url ∈ front, url ∈ a.allowedMessages) (unlisted : url ∉ a.allowedMessages)
    (room : count g + 10 * (a.allowedMessages.length + front.length + 1) ≤ capacity g) :
    ∃ g', a.accept consume acceptInner g blockTime fee (front ++ url :: rest) =
        .ok (g', a, false, some errMsgNotAllowed) ∧
      count g' = count g + 10 * (a.allowedMessages.length + front.length + 1) := by
  obtain ⟨g₁, mapped, counted₁, kept⟩ :=
    allowedMsgsToMap_of_room consume count capacity consumes charges g a.allowedMessages (by omega)
  obtain ⟨g', checked, counted⟩ := allMsgTypesAllowedLoop_of_unlisted consume count capacity consumes charges
    a.allowedMessages url rest unlisted front listed g₁ (by rw [kept, counted₁]; omega)
  refine ⟨g', ?_, by omega⟩
  rw [accept, allMsgTypesAllowed, mapped, ok_bind]
  dsimp only
  rw [checked, ok_bind]
  rfl

/-- Messages whose types are all listed: the result of the wrapped `Accept` on
the meter the checks leave, its panics included, with the cached allowance
updated to what it leaves. -/
theorem accept_of_listed (a : AllowedMsgAllowance A) (g : M) (blockTime : Time) (fee : Coins)
    (msgs : List String) (listed : ∀ url ∈ msgs, url ∈ a.allowedMessages) {inner : A}
    (cached : a.allowance = .cached inner)
    (room : count g + 10 * (a.allowedMessages.length + msgs.length) ≤ capacity g) :
    ∃ g', a.accept consume acceptInner g blockTime fee msgs =
        (acceptInner inner g' blockTime fee msgs).map (fun result =>
          (result.2.1, { a with allowance := .cached result.1 }, result.2.2.1, result.2.2.2)) ∧
      count g' = count g + 10 * (a.allowedMessages.length + msgs.length) := by
  obtain ⟨g₁, mapped, counted₁, kept⟩ :=
    allowedMsgsToMap_of_room consume count capacity consumes charges g a.allowedMessages (by omega)
  obtain ⟨g', checked, counted⟩ := allMsgTypesAllowedLoop_of_listed consume count capacity consumes charges
    a.allowedMessages msgs listed g₁ (by rw [kept, counted₁]; omega)
  refine ⟨g', ?_, by omega⟩
  rw [accept, allMsgTypesAllowed, mapped, ok_bind]
  dsimp only
  rw [checked, ok_bind]
  dsimp only
  rw [Bool.not_true, if_neg Bool.false_ne_true, cached]
  dsimp only
  -- the wrapped result, returned or not, is passed on as it is
  cases acceptInner inner g' blockTime fee msgs <;> rfl

end Charges

end AllowedMsgAllowance

/-- On a transaction's gas meter with room for the checks: a transaction with a
message whose type is not listed is refused with `message not allowed` after
ten gas for each listed type and each message checked up to it, and the allowance
is left as it was; a transaction whose message types are all listed gets what the
wrapped `Accept` returns on the meter charged ten gas for each listed type and
each message. -/
theorem accept_filters_msgs {A : Type} (acceptInner : AllowedMsgAllowance.InnerAccept A BasicGasMeter)
    (a : AllowedMsgAllowance A) (g : BasicGasMeter) (blockTime : Time) (fee : Coins) :
    (∀ (front : List String) (url : String) (rest : List String), (∀ url ∈ front, url ∈ a.allowedMessages) →
      url ∉ a.allowedMessages →
      g.consumed.toNat + 10 * (a.allowedMessages.length + front.length + 1) ≤ g.limit.toNat →
      ∃ g', a.accept BasicGasMeter.consumeGas acceptInner g blockTime fee (front ++ url :: rest) =
          .ok (g', a, false, some AllowedMsgAllowance.errMsgNotAllowed) ∧
        g'.consumed.toNat = g.consumed.toNat + 10 * (a.allowedMessages.length + front.length + 1)) ∧
    (∀ (msgs : List String) (inner : A), (∀ url ∈ msgs, url ∈ a.allowedMessages) → a.allowance = .cached inner →
      g.consumed.toNat + 10 * (a.allowedMessages.length + msgs.length) ≤ g.limit.toNat →
      ∃ g', a.accept BasicGasMeter.consumeGas acceptInner g blockTime fee msgs =
          (acceptInner inner g' blockTime fee msgs).map (fun result =>
            (result.2.1, { a with allowance := .cached result.1 }, result.2.2.1, result.2.2.2)) ∧
        g'.consumed.toNat = g.consumed.toNat + 10 * (a.allowedMessages.length + msgs.length)) := by
  -- the basic meter charges ten on each call that stays within its limit
  have consumes : ∀ g g' : BasicGasMeter, g.consumeGas gasCostPerIteration "check msg" = (g', none) →
      g'.consumed.toNat = g.consumed.toNat + 10 ∧ g'.limit.toNat = g.limit.toNat := fun g _ quiet =>
    ⟨BasicGasMeter.consumeGas_quiet quiet, by rw [← BasicGasMeter.consumeGas_limit g gasCostPerIteration "check msg", quiet]⟩
  have charges : ∀ g : BasicGasMeter, g.consumed.toNat + 10 ≤ g.limit.toNat →
      ∃ g', g.consumeGas gasCostPerIteration "check msg" = (g', none) :=
    fun g within => ⟨_, BasicGasMeter.consumeGas_of_le_limit g gasCostPerIteration "check msg" within⟩
  refine ⟨fun front url rest listed unlisted room => ?_, fun msgs inner listed cached room => ?_⟩
  · exact AllowedMsgAllowance.accept_of_unlisted BasicGasMeter.consumeGas acceptInner (fun g => g.consumed.toNat)
      (fun g => g.limit.toNat) consumes charges a g blockTime fee front url rest listed unlisted room
  · exact AllowedMsgAllowance.accept_of_listed BasicGasMeter.consumeGas acceptInner (fun g => g.consumed.toNat)
      (fun g => g.limit.toNat) consumes charges a g blockTime fee msgs listed cached room

/-- `BasicAllowance.Accept` behind the interface: it reads the block time of the
context only, and neither the meter nor the messages. -/
def BasicAllowance.acceptCtx {M : Type} (a : BasicAllowance) (g : M) (blockTime : Time) (fee : Coins)
    (_msgs : List String) : Result (BasicAllowance × M × Bool × Option GoError) :=
  (a.accept blockTime fee).map fun result => (result.1, g, result.2)

/-- A grant for bank sends only, used for a vote: refused after twenty gas, ten for
the one listed type and ten for the vote. -/
theorem accept_filters_msgs_vote :
    ∃ g', (⟨.cached ⟨none, none⟩, ["/cosmos.bank.v1beta1.MsgSend"]⟩ : AllowedMsgAllowance BasicAllowance).accept
        BasicGasMeter.consumeGas BasicAllowance.acceptCtx (BasicGasMeter.newGasMeter 100) 0 []
        ["/cosmos.gov.v1beta1.MsgVote"] =
      .ok (g', ⟨.cached ⟨none, none⟩, ["/cosmos.bank.v1beta1.MsgSend"]⟩, false,
        some AllowedMsgAllowance.errMsgNotAllowed) ∧
      g'.consumed.toNat = 20 := by
  obtain ⟨g', refused, counted⟩ := (accept_filters_msgs BasicAllowance.acceptCtx
    ⟨.cached ⟨none, none⟩, ["/cosmos.bank.v1beta1.MsgSend"]⟩ (BasicGasMeter.newGasMeter 100) 0 []).1
    [] "/cosmos.gov.v1beta1.MsgVote" [] (by simp) (by decide) (by decide)
  exact ⟨g', refused, by rw [counted]; rfl⟩

end CoreSdk.Feegrant
