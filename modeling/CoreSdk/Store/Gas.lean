import Mathlib.Algebra.BigOperators.Group.List.Basic
import CoreSdk.Go.Strconv

/-!
# Gas meters

`basicGasMeter` and `infiniteGasMeter` (`store/gas.go`) count gas in `uint64`.
`ConsumeGas` adds with `addUint64Overflow` and panics on an overflow, and the
basic meter also panics past its limit; `RefundGas` panics when it would take
more than was consumed. The callers recover these panics (`ErrorOutOfGas` is
how a transaction runs out of gas), so a call is modelled by the meter it
leaves, with the value it panicked with, if any.

`ConsumeGas` stores the sum before it checks the overflow flag, and the sum of
an overflow is `0`: an overflowing call resets the count to zero
(`consumeGas_loses_gas`). A run of calls none of which panics counts exactly
what was consumed less what was refunded.
-/

namespace CoreSdk.Store

set_option autoImplicit false

/-- `Gas`. -/
abbrev Gas := UInt64

/-- The values the meters panic with: `ErrorNegativeGasConsumed`,
`ErrorOutOfGas` and `ErrorGasOverflow`, each with its descriptor. -/
inductive GasError where
  | negativeGasConsumed (descriptor : String)
  | outOfGas (descriptor : String)
  | gasOverflow (descriptor : String)
  deriving DecidableEq, Repr

/-- `addUint64Overflow`: the sum, or `0` and the flag when it overflows. -/
def addUint64Overflow (a b : UInt64) : UInt64 × Bool :=
  if Go.Strconv.maxUint64.toUInt64 - a < b then (0, true)
  else (a + b, false)

/-- `basicGasMeter`. -/
structure BasicGasMeter where
  limit : Gas
  consumed : Gas
  deriving DecidableEq, Repr

namespace BasicGasMeter

/-- `NewGasMeter`. -/
def newGasMeter (limit : Gas) : BasicGasMeter := ⟨limit, 0⟩

/-- `IsPastLimit`. -/
def isPastLimit (g : BasicGasMeter) : Bool := g.consumed > g.limit

/-- `IsOutOfGas`. -/
def isOutOfGas (g : BasicGasMeter) : Bool := g.consumed ≥ g.limit

/-- `GasConsumedToLimit`. -/
def gasConsumedToLimit (g : BasicGasMeter) : Gas := if g.isPastLimit then g.limit else g.consumed

/-- `ConsumeGas`: the meter it leaves, and what it panics with. -/
def consumeGas (g : BasicGasMeter) (amount : Gas) (descriptor : String) : BasicGasMeter × Option GasError :=
  -- `g.consumed, overflow = addUint64Overflow(g.consumed, amount)`
  let sum := addUint64Overflow g.consumed amount
  let g := { g with consumed := sum.1 }
  if sum.2 then (g, some (.gasOverflow descriptor))
  else if g.consumed > g.limit then (g, some (.outOfGas descriptor))
  else (g, none)

/-- `RefundGas`. -/
def refundGas (g : BasicGasMeter) (amount : Gas) (descriptor : String) : BasicGasMeter × Option GasError :=
  if g.consumed < amount then (g, some (.negativeGasConsumed descriptor))
  else ({ g with consumed := g.consumed - amount }, none)

end BasicGasMeter

/-- `infiniteGasMeter`. -/
structure InfiniteGasMeter where
  consumed : Gas
  deriving DecidableEq, Repr

namespace InfiniteGasMeter

/-- `NewInfiniteGasMeter`. -/
def newInfiniteGasMeter : InfiniteGasMeter := ⟨0⟩

/-- `ConsumeGas`: the meter it leaves, and what it panics with. -/
def consumeGas (g : InfiniteGasMeter) (amount : Gas) (descriptor : String) : InfiniteGasMeter × Option GasError :=
  let sum := addUint64Overflow g.consumed amount
  let g := { g with consumed := sum.1 }
  if sum.2 then (g, some (.gasOverflow descriptor))
  else (g, none)

/-- `RefundGas`. -/
def refundGas (g : InfiniteGasMeter) (amount : Gas) (descriptor : String) : InfiniteGasMeter × Option GasError :=
  if g.consumed < amount then (g, some (.negativeGasConsumed descriptor))
  else ({ g with consumed := g.consumed - amount }, none)

end InfiniteGasMeter

/-- A gas panic as `fmt` prints its value, a struct of one field, the descriptor. -/
def GasError.text : GasError → String
  | .negativeGasConsumed descriptor => "\x7b" ++ descriptor ++ "\x7d"
  | .outOfGas descriptor => "\x7b" ++ descriptor ++ "\x7d"
  | .gasOverflow descriptor => "\x7b" ++ descriptor ++ "\x7d"

/-- `ConsumeGas` called where its panic is not recovered: the meter, or the panic. -/
def chargeGas {M : Type} (consume : M → Gas → String → M × Option GasError) (g : M) (amount : Gas)
    (descriptor : String) : Go.Result M :=
  match consume g amount descriptor with
  | (g, none) => .ok g
  | (_, some fault) => Go.panicWith fault.text

theorem chargeGas_of_quiet {M : Type} {consume : M → Gas → String → M × Option GasError} {g g' : M}
    {amount : Gas} {descriptor : String} (quiet : consume g amount descriptor = (g', none)) :
    chargeGas consume g amount descriptor = .ok g' := by
  rw [chargeGas, quiet]

/-- \x60GasConfig\x60: the gas of each operation on a \x60KVStore\x60. -/
structure GasConfig where
  hasCost : Gas
  deleteCost : Gas
  readCostFlat : Gas
  readCostPerByte : Gas
  writeCostFlat : Gas
  writeCostPerByte : Gas
  iterNextCostFlat : Gas
  deriving DecidableEq, Repr

/-- \x60KVGasConfig\x60. -/
def kvGasConfig : GasConfig := ⟨1000, 1000, 1000, 3, 2000, 30, 30⟩

/-- \x60TransientGasConfig\x60. -/
def transientGasConfig : GasConfig := ⟨100, 100, 100, 0, 200, 3, 3⟩

-- the descriptors of the charges of a gas-metered store
def gasIterNextCostFlatDesc : String := "IterNextFlat"
def gasValuePerByteDesc : String := "ValuePerByte"
def gasWritePerByteDesc : String := "WritePerByte"
def gasReadPerByteDesc : String := "ReadPerByte"
def gasWriteCostFlatDesc : String := "WriteFlat"
def gasReadCostFlatDesc : String := "ReadFlat"
def gasHasDesc : String := "Has"
def gasDeleteDesc : String := "Delete"

/-- A call on a gas meter. -/
inductive GasCall where
  | consume (amount : Gas) (descriptor : String)
  | refund (amount : Gas) (descriptor : String)

namespace GasCall

/-- The gas a call consumes. -/
def consumed : GasCall → Nat
  | consume amount _ => amount.toNat
  | refund _ _ => 0

/-- The gas a call refunds. -/
def refunded : GasCall → Nat
  | consume _ _ => 0
  | refund amount _ => amount.toNat

end GasCall

/-- A run of calls on a meter, each panic recovered: the meter left, and whether
some call panicked. -/
def runCalls {M : Type} (consume refund : M → Gas → String → M × Option GasError) : M → List GasCall → M × Bool
  | g, [] => (g, false)
  | g, call :: calls =>
    let (g, fault) := match call with
      | .consume amount descriptor => consume g amount descriptor
      | .refund amount descriptor => refund g amount descriptor
    let (g, panicked) := runCalls consume refund g calls
    (g, fault.isSome || panicked)

theorem addUint64Overflow_eq (a b : UInt64) :
    addUint64Overflow a b = if a.toNat + b.toNat < 2 ^ 64 then (a + b, false) else (0, true) := by
  have top : Go.Strconv.maxUint64.toUInt64.toNat = 2 ^ 64 - 1 := by
    rw [Go.Strconv.maxUint64]
    rfl
  have below := UInt64.toNat_lt a
  have room : (Go.Strconv.maxUint64.toUInt64 - a).toNat = 2 ^ 64 - 1 - a.toNat := by
    rw [UInt64.toNat_sub_of_le _ _ (UInt64.le_iff_toNat_le.mpr (by rw [top]; omega)), top]
  -- what is left below the maximum is less than `b` exactly when the sum overflows
  have test : Go.Strconv.maxUint64.toUInt64 - a < b ↔ ¬a.toNat + b.toNat < 2 ^ 64 := by
    rw [UInt64.lt_iff_toNat_lt, room]
    omega
  by_cases fits : a.toNat + b.toNat < 2 ^ 64
  · rw [addUint64Overflow, if_neg (fun overflows => test.mp overflows fits), if_pos fits]
  · rw [addUint64Overflow, if_pos (test.mpr fits), if_neg fits]

theorem toNat_add_of_fits {a b : UInt64} (fits : a.toNat + b.toNat < 2 ^ 64) : (a + b).toNat = a.toNat + b.toNat := by
  rw [UInt64.toNat_add, Nat.mod_eq_of_lt fits]

theorem toNat_sub_add_of_not_lt {a b : UInt64} (enough : ¬a < b) : (a - b).toNat + b.toNat = a.toNat := by
  have atMost := UInt64.not_lt.mp enough
  rw [UInt64.toNat_sub_of_le _ _ atMost]
  have := UInt64.le_iff_toNat_le.mp atMost
  omega

namespace BasicGasMeter

theorem consumeGas_of_overflow (g : BasicGasMeter) (amount : Gas) (descriptor : String)
    (overflow : 2 ^ 64 ≤ g.consumed.toNat + amount.toNat) :
    g.consumeGas amount descriptor = ({ g with consumed := 0 }, some (.gasOverflow descriptor)) := by
  have overflows : ¬g.consumed.toNat + amount.toNat < 2 ^ 64 := by omega
  rw [consumeGas, addUint64Overflow_eq, if_neg overflows]
  rfl

theorem consumeGas_of_fits (g : BasicGasMeter) (amount : Gas) (descriptor : String)
    (fits : g.consumed.toNat + amount.toNat < 2 ^ 64) :
    g.consumeGas amount descriptor = ({ g with consumed := g.consumed + amount },
      if g.consumed + amount > g.limit then some (.outOfGas descriptor) else none) := by
  rw [consumeGas, addUint64Overflow_eq, if_pos fits]
  simp only [Bool.false_eq_true, reduceIte]
  split_ifs <;> rfl

/-- Without an overflow the count only grows, and a call that panics leaves the
meter out of gas. -/
theorem consumeGas_of_fits_outOfGas (g : BasicGasMeter) (amount : Gas) (descriptor : String)
    (fits : g.consumed.toNat + amount.toNat < 2 ^ 64) :
    (g.consumeGas amount descriptor).1.consumed.toNat = g.consumed.toNat + amount.toNat ∧
      ((g.consumeGas amount descriptor).2.isSome → (g.consumeGas amount descriptor).1.isOutOfGas) := by
  rw [consumeGas_of_fits g amount descriptor fits]
  refine ⟨toNat_add_of_fits fits, fun panicked => ?_⟩
  dsimp only at panicked
  split_ifs at panicked with past
  · rw [isOutOfGas, decide_eq_true_iff]
    exact UInt64.le_of_lt past
  · cases panicked

/-- A `ConsumeGas` that returns adds the amount. -/
theorem consumeGas_quiet {g g' : BasicGasMeter} {amount : Gas} {descriptor : String}
    (quiet : g.consumeGas amount descriptor = (g', none)) : g'.consumed.toNat = g.consumed.toNat + amount.toNat := by
  by_cases fits : g.consumed.toNat + amount.toNat < 2 ^ 64
  · rw [consumeGas_of_fits g amount descriptor fits] at quiet
    split_ifs at quiet
    · cases quiet
    · obtain ⟨rfl, -⟩ := Prod.mk.inj quiet
      exact toNat_add_of_fits fits
  · rw [consumeGas_of_overflow g amount descriptor (by omega)] at quiet
    cases quiet

/-- `ConsumeGas` never changes the limit. -/
theorem consumeGas_limit (g : BasicGasMeter) (amount : Gas) (descriptor : String) :
    (g.consumeGas amount descriptor).1.limit = g.limit := by
  by_cases fits : g.consumed.toNat + amount.toNat < 2 ^ 64
  · rw [consumeGas_of_fits g amount descriptor fits]
  · rw [consumeGas_of_overflow g amount descriptor (by omega)]

/-- A `ConsumeGas` that stays within the limit returns. -/
theorem consumeGas_of_le_limit (g : BasicGasMeter) (amount : Gas) (descriptor : String)
    (within : g.consumed.toNat + amount.toNat ≤ g.limit.toNat) :
    g.consumeGas amount descriptor = ({ g with consumed := g.consumed + amount }, none) := by
  have fits : g.consumed.toNat + amount.toNat < 2 ^ 64 := lt_of_le_of_lt within (UInt64.toNat_lt g.limit)
  have notPast : ¬g.consumed + amount > g.limit := by
    rw [gt_iff_lt, UInt64.lt_iff_toNat_lt, toNat_add_of_fits fits]
    omega
  rw [consumeGas_of_fits g amount descriptor fits, if_neg notPast]

/-- A `RefundGas` that returns takes the amount off. -/
theorem refundGas_quiet {g g' : BasicGasMeter} {amount : Gas} {descriptor : String}
    (quiet : g.refundGas amount descriptor = (g', none)) : g'.consumed.toNat + amount.toNat = g.consumed.toNat := by
  rw [refundGas] at quiet
  split_ifs at quiet with short
  · cases quiet
  · obtain ⟨rfl, -⟩ := Prod.mk.inj quiet
    exact toNat_sub_add_of_not_lt short

end BasicGasMeter

namespace InfiniteGasMeter

theorem consumeGas_of_overflow (g : InfiniteGasMeter) (amount : Gas) (descriptor : String)
    (overflow : 2 ^ 64 ≤ g.consumed.toNat + amount.toNat) :
    g.consumeGas amount descriptor = (⟨0⟩, some (.gasOverflow descriptor)) := by
  have overflows : ¬g.consumed.toNat + amount.toNat < 2 ^ 64 := by omega
  rw [consumeGas, addUint64Overflow_eq, if_neg overflows]
  rfl

theorem consumeGas_quiet {g g' : InfiniteGasMeter} {amount : Gas} {descriptor : String}
    (quiet : g.consumeGas amount descriptor = (g', none)) : g'.consumed.toNat = g.consumed.toNat + amount.toNat := by
  by_cases fits : g.consumed.toNat + amount.toNat < 2 ^ 64
  · rw [consumeGas, addUint64Overflow_eq, if_pos fits] at quiet
    obtain ⟨rfl, -⟩ := Prod.mk.inj quiet
    exact toNat_add_of_fits fits
  · rw [consumeGas_of_overflow g amount descriptor (by omega)] at quiet
    cases quiet

theorem refundGas_quiet {g g' : InfiniteGasMeter} {amount : Gas} {descriptor : String}
    (quiet : g.refundGas amount descriptor = (g', none)) : g'.consumed.toNat + amount.toNat = g.consumed.toNat := by
  rw [refundGas] at quiet
  split_ifs at quiet with short
  · cases quiet
  · obtain ⟨rfl, -⟩ := Prod.mk.inj quiet
    exact toNat_sub_add_of_not_lt short

theorem consumeGas_of_fits (g : InfiniteGasMeter) (amount : Gas) (descriptor : String)
    (fits : g.consumed.toNat + amount.toNat < 2 ^ 64) :
    g.consumeGas amount descriptor = (⟨g.consumed + amount⟩, none) := by
  rw [consumeGas, addUint64Overflow_eq, if_pos fits]
  rfl

end InfiniteGasMeter

/-! ## Meters that count against a capacity -/

/-- A meter read as a count against a capacity: a \x60ConsumeGas\x60 that returns adds the
amount to the count and keeps the capacity, one whose amount fits returns, and one
whose amount does not panics. -/
structure CountingMeter {M : Type} (consume : M → Gas → String → M × Option GasError) where
  count : M → Nat
  capacity : M → Nat
  consumes : ∀ {g g' : M} {amount : Gas} {descriptor : String}, consume g amount descriptor = (g', none) →
    count g' = count g + amount.toNat ∧ capacity g' = capacity g
  charges : ∀ (g : M) (amount : Gas) (descriptor : String), count g + amount.toNat ≤ capacity g →
    ∃ g', consume g amount descriptor = (g', none)
  refuses : ∀ (g : M) (amount : Gas) (descriptor : String), capacity g < count g + amount.toNat →
    ∃ g' fault, consume g amount descriptor = (g', some fault)

namespace CountingMeter

variable {M : Type} {consume : M → Gas → String → M × Option GasError} (meter : CountingMeter consume)

/-- \x60g'\x60 is the meter \x60g\x60 with \x60cost\x60 more counted, against the same capacity. -/
def Charged (g g' : M) (cost : Nat) : Prop :=
  meter.count g' = meter.count g + cost ∧ meter.capacity g' = meter.capacity g

theorem Charged.refl (g : M) : meter.Charged g g 0 := ⟨rfl, rfl⟩

theorem Charged.trans {meter : CountingMeter consume} {g g' g'' : M} {cost cost' : Nat}
    (first : meter.Charged g g' cost) (second : meter.Charged g' g'' cost') :
    meter.Charged g g'' (cost + cost') := by
  obtain ⟨counted, kept⟩ := first
  obtain ⟨counted', kept'⟩ := second
  exact ⟨by omega, kept'.trans kept⟩

theorem chargeGas_of_room (g : M) (amount : Gas) (descriptor : String)
    (room : meter.count g + amount.toNat ≤ meter.capacity g) :
    ∃ g', chargeGas consume g amount descriptor = .ok g' ∧ meter.Charged g g' amount.toNat := by
  obtain ⟨g', quiet⟩ := meter.charges g amount descriptor room
  exact ⟨g', chargeGas_of_quiet quiet, meter.consumes quiet⟩

theorem chargeGas_of_exceeds (g : M) (amount : Gas) (descriptor : String)
    (past : meter.capacity g < meter.count g + amount.toNat) :
    Go.Panicked (chargeGas consume g amount descriptor) := by
  obtain ⟨g', fault, refused⟩ := meter.refuses g amount descriptor past
  exact ⟨fault.text, by rw [chargeGas, refused]⟩

section Continued

variable {α : Type} (k : M → Go.Result α)

theorem bind_chargeGas_of_room (g : M) (amount : Gas) (descriptor : String)
    (room : meter.count g + amount.toNat ≤ meter.capacity g) :
    ∃ g', (chargeGas consume g amount descriptor >>= k) = k g' ∧ meter.Charged g g' amount.toNat := by
  obtain ⟨g', charged, counted⟩ := meter.chargeGas_of_room g amount descriptor room
  exact ⟨g', by rw [charged, Go.ok_bind], counted⟩

/-- Two charges in a row that fit together both return: the charges of \x60Get\x60,
of \x60Set\x60 and of a seek. -/
theorem bind_chargeGas_chargeGas_of_room (g : M) (amount amount' : Gas) (descriptor descriptor' : String)
    (room : meter.count g + (amount.toNat + amount'.toNat) ≤ meter.capacity g) :
    ∃ g'', (chargeGas consume g amount descriptor >>= fun g' => chargeGas consume g' amount' descriptor' >>= k) =
      k g'' ∧ meter.Charged g g'' (amount.toNat + amount'.toNat) := by
  obtain ⟨g', first, charged⟩ := meter.chargeGas_of_room g amount descriptor (by omega)
  have roomLeft : meter.count g' + amount'.toNat ≤ meter.capacity g' := by
    rw [charged.1, charged.2]
    omega
  obtain ⟨g'', second, charged'⟩ := meter.bind_chargeGas_of_room k g' amount' descriptor' roomLeft
  exact ⟨g'', by rw [first, Go.ok_bind, second], charged.trans charged'⟩

/-- Two charges in a row that do not fit together panic, at the first or at the second. -/
theorem bind_chargeGas_chargeGas_of_exceeds (g : M) (amount amount' : Gas) (descriptor descriptor' : String)
    (past : meter.capacity g < meter.count g + (amount.toNat + amount'.toNat)) :
    Go.Panicked (chargeGas consume g amount descriptor >>= fun g' => chargeGas consume g' amount' descriptor' >>= k) := by
  by_cases room : meter.count g + amount.toNat ≤ meter.capacity g
  · obtain ⟨g', first, charged⟩ := meter.chargeGas_of_room g amount descriptor room
    have pastLeft : meter.capacity g' < meter.count g' + amount'.toNat := by
      rw [charged.1, charged.2]
      omega
    rw [first, Go.ok_bind]
    exact Go.panicked_bind (meter.chargeGas_of_exceeds g' amount' descriptor' pastLeft)
  · exact Go.panicked_bind (meter.chargeGas_of_exceeds g amount descriptor (by omega))

end Continued

end CountingMeter

namespace BasicGasMeter

/-- The basic meter counts what it consumed against its limit; past the limit it
panics out of gas, or with an overflow. -/
def countingMeter : CountingMeter consumeGas where
  count g := g.consumed.toNat
  capacity g := g.limit.toNat
  consumes := fun {g _ amount descriptor} quiet => by
    have kept := consumeGas_limit g amount descriptor
    rw [quiet] at kept
    exact ⟨consumeGas_quiet quiet, congrArg UInt64.toNat kept⟩
  charges g amount descriptor within := ⟨_, consumeGas_of_le_limit g amount descriptor within⟩
  refuses g amount descriptor past := by
    by_cases fits : g.consumed.toNat + amount.toNat < 2 ^ 64
    · -- the sum is stored and is past the limit
      have pastLimit : g.consumed + amount > g.limit := by
        rw [gt_iff_lt, UInt64.lt_iff_toNat_lt, toNat_add_of_fits fits]
        exact past
      exact ⟨_, _, by rw [consumeGas_of_fits g amount descriptor fits, if_pos pastLimit]⟩
    · exact ⟨_, _, consumeGas_of_overflow g amount descriptor (by omega)⟩

end BasicGasMeter

namespace InfiniteGasMeter

/-- The infinite meter counts against \x60math.MaxUint64\x60, past which it overflows. -/
def countingMeter : CountingMeter consumeGas where
  count g := g.consumed.toNat
  capacity _ := 2 ^ 64 - 1
  consumes quiet := ⟨consumeGas_quiet quiet, rfl⟩
  charges g amount descriptor within := ⟨_, consumeGas_of_fits g amount descriptor (by omega)⟩
  refuses g amount descriptor past := ⟨_, _, consumeGas_of_overflow g amount descriptor (by omega)⟩

end InfiniteGasMeter

/-- Over a run in which no call panics, the count is what was consumed less
what was refunded, for any meter whose quiet calls add and take off. -/
theorem runCalls_count {M : Type} (consume refund : M → Gas → String → M × Option GasError) (count : M → Nat)
    (consumes : ∀ g g' amount descriptor, consume g amount descriptor = (g', none) → count g' = count g + amount.toNat)
    (refunds : ∀ g g' amount descriptor, refund g amount descriptor = (g', none) → count g' + amount.toNat = count g)
    (calls : List GasCall) : ∀ (g final : M), runCalls consume refund g calls = (final, false) →
      (count final : Int) = count g + (calls.map GasCall.consumed).sum - (calls.map GasCall.refunded).sum := by
  induction calls with
  | nil =>
    intro g final quiet
    cases quiet
    simp
  | cons call calls induction =>
    intro g final quiet
    -- the first call returned, and so did every later one
    cases call with
    | consume amount descriptor =>
      rcases first : consume g amount descriptor with ⟨g', fault⟩
      rcases rest : runCalls consume refund g' calls with ⟨final', panicked⟩
      simp only [runCalls, first, rest, Prod.mk.injEq, Bool.or_eq_false_iff, Option.isSome_eq_false_iff,
        Option.isNone_iff_eq_none] at quiet
      obtain ⟨rfl, rfl, rfl⟩ := quiet
      have added := consumes g g' amount descriptor first
      have later := induction g' _ rest
      simp only [List.map_cons, List.sum_cons, GasCall.consumed, GasCall.refunded]
      omega
    | refund amount descriptor =>
      rcases first : refund g amount descriptor with ⟨g', fault⟩
      rcases rest : runCalls consume refund g' calls with ⟨final', panicked⟩
      simp only [runCalls, first, rest, Prod.mk.injEq, Bool.or_eq_false_iff, Option.isSome_eq_false_iff,
        Option.isNone_iff_eq_none] at quiet
      obtain ⟨rfl, rfl, rfl⟩ := quiet
      have taken := refunds g g' amount descriptor first
      have later := induction g' _ rest
      simp only [List.map_cons, List.sum_cons, GasCall.consumed, GasCall.refunded]
      omega

theorem consumeGas_loses_gas :
    (∀ (g : BasicGasMeter) (amount : Gas) (descriptor : String), 2 ^ 64 ≤ g.consumed.toNat + amount.toNat →
      g.consumeGas amount descriptor = ({ g with consumed := 0 }, some (.gasOverflow descriptor)) ∧
      (0 < g.consumed → (g.consumeGas amount descriptor).1.consumed < g.consumed) ∧
      (0 < g.limit → (g.consumeGas amount descriptor).1.isOutOfGas = false)) ∧
    (∀ (g : BasicGasMeter) (amount : Gas) (descriptor : String), g.consumed.toNat + amount.toNat < 2 ^ 64 →
      (g.consumeGas amount descriptor).1.consumed.toNat = g.consumed.toNat + amount.toNat ∧
      ((g.consumeGas amount descriptor).2.isSome → (g.consumeGas amount descriptor).1.isOutOfGas)) ∧
    (∀ (g : InfiniteGasMeter) (amount : Gas) (descriptor : String), 2 ^ 64 ≤ g.consumed.toNat + amount.toNat →
      g.consumeGas amount descriptor = (⟨0⟩, some (.gasOverflow descriptor))) ∧
    (∀ (calls : List GasCall) (g final : BasicGasMeter),
      runCalls BasicGasMeter.consumeGas BasicGasMeter.refundGas g calls = (final, false) →
      (final.consumed.toNat : Int) = g.consumed.toNat + (calls.map GasCall.consumed).sum -
        (calls.map GasCall.refunded).sum) ∧
    (∀ (calls : List GasCall) (g final : InfiniteGasMeter),
      runCalls InfiniteGasMeter.consumeGas InfiniteGasMeter.refundGas g calls = (final, false) →
      (final.consumed.toNat : Int) = g.consumed.toNat + (calls.map GasCall.consumed).sum -
        (calls.map GasCall.refunded).sum) := by
  refine ⟨fun g amount descriptor overflow => ?_, BasicGasMeter.consumeGas_of_fits_outOfGas,
    InfiniteGasMeter.consumeGas_of_overflow, fun calls => ?_, fun calls => ?_⟩
  · -- the sum of an overflow is stored: the count drops to zero, below any limit
    have reset := BasicGasMeter.consumeGas_of_overflow g amount descriptor overflow
    refine ⟨reset, fun counted => ?_, fun limited => ?_⟩
    · rw [reset]
      exact counted
    · rw [reset, BasicGasMeter.isOutOfGas, decide_eq_false_iff_not]
      exact UInt64.not_le.mpr limited
  · exact runCalls_count _ _ (fun g : BasicGasMeter => g.consumed.toNat) (fun _ _ _ _ => BasicGasMeter.consumeGas_quiet)
      (fun _ _ _ _ => BasicGasMeter.refundGas_quiet) calls
  · exact runCalls_count _ _ (fun g : InfiniteGasMeter => g.consumed.toNat)
      (fun _ _ _ _ => InfiniteGasMeter.consumeGas_quiet)
      (fun _ _ _ _ => InfiniteGasMeter.refundGas_quiet) calls

/-- The failing case: a meter at `5` of `10` consumes `math.MaxUint64`. The call
panics with an overflow, and the meter is left at `0` and not out of gas. -/
theorem consumeGas_loses_gas_five :
    (BasicGasMeter.consumeGas ⟨10, 5⟩ 18446744073709551615 "panic").1.consumed = 0 ∧
      (BasicGasMeter.consumeGas ⟨10, 5⟩ 18446744073709551615 "panic").1.isOutOfGas = false := by
  rw [(consumeGas_loses_gas.1 ⟨10, 5⟩ 18446744073709551615 "panic" (by decide)).1]
  exact ⟨rfl, rfl⟩

end CoreSdk.Store
