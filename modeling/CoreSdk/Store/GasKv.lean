import CoreSdk.Store.Gas
import CoreSdk.Store.Utils

/-!
# The gas-metered store

`gaskv.Store` (`store/gaskv/store.go`) wraps the `KVStore` a context hands out
(`types/context.go`, with `KVGasConfig`, or `TransientGasConfig` for a transient
store) and charges the context's gas meter before it passes a call on: a flat
cost for `Has` and `Delete`, and for `Get` and `Set` a flat cost and a cost for
each byte of the value. `Set` first panics on an empty key or a nil value. The
meter's panics are not recovered in the store.

An iterator of the store charges at each seek a cost for each byte of the
current value and a flat cost: once when it is created on a domain that is not
empty, and again at each `Next` while it is valid, before it moves. A caller that
reads the iterator to its end thus pays for the first pair twice.

The parent is any store: its calls are the fields of `KVStoreOps` and those of
its iterators the fields of `IteratorOps`. With a meter that counts against a
capacity, a run of calls through the store does what the same run does on the
parent and counts the cost of each call, and it panics once the costs pass the
capacity (`run_refines_parent`).
-/

namespace CoreSdk.Store

open Go

set_option autoImplicit false

/-- The calls of the `KVStore` interface that the store passes on, to a parent of
type `P` whose iterators are of type `I`. The parent's own panics, on a nil key,
are its business: here its calls return. -/
structure KVStoreOps (P I : Type) where
  get : P → Bytes → Option Bytes
  has : P → Bytes → Bool
  set : P → Bytes → Bytes → P
  delete : P → Bytes → P
  iterator : P → Bytes → Option Bytes → I
  reverseIterator : P → Bytes → Option Bytes → I

/-- The calls of `dbm.Iterator` that the gas iterator passes on. -/
structure IteratorOps (I : Type) where
  valid : I → Bool
  next : I → I
  key : I → Bytes
  value : I → Bytes

/-- `AssertValidKey` (`store/validity.go`): a nil or empty key panics. -/
def assertValidKey (key : Bytes) : Result Unit :=
  if key.length = 0 then panicWith "key is nil" else pure ()

/-- `AssertValidValue`: a nil value panics, an empty one does not. -/
def assertValidValue : Option Bytes → Result Unit
  | none => panicWith "value is nil"
  | some _ => pure ()

/-- `cost*types.Gas(len(value))`, in `uint64` arithmetic, which wraps. -/
def byteGas (cost : Gas) (value : Bytes) : Gas := cost * value.length.toUInt64

/-- `gaskv.Store`. -/
structure GasKVStore (M P : Type) where
  gasMeter : M
  gasConfig : GasConfig
  parent : P

namespace GasKVStore

variable {M P I : Type} (consume : M → Gas → String → M × Option GasError) (ops : KVStoreOps P I)

/-- `NewStore`. -/
def newStore (parent : P) (gasMeter : M) (gasConfig : GasConfig) : GasKVStore M P :=
  ⟨gasMeter, gasConfig, parent⟩

/-- `Get`: the flat cost, the read, then the cost of the bytes read; a key with no
value reads as `nil`, of length zero. -/
def get (gs : GasKVStore M P) (key : Bytes) : Result (GasKVStore M P × Option Bytes) := do
  let g ← chargeGas consume gs.gasMeter gs.gasConfig.readCostFlat gasReadCostFlatDesc
  let value := ops.get gs.parent key
  let g ← chargeGas consume g (byteGas gs.gasConfig.readCostPerByte (value.getD [])) gasReadPerByteDesc
  pure ({ gs with gasMeter := g }, value)

/-- `Set`: the key and the value checked, the flat cost and the cost of the bytes,
then the write. -/
def set (gs : GasKVStore M P) (key : Bytes) (value : Option Bytes) : Result (GasKVStore M P) := do
  assertValidKey key
  assertValidValue value
  let g ← chargeGas consume gs.gasMeter gs.gasConfig.writeCostFlat gasWriteCostFlatDesc
  let g ← chargeGas consume g (byteGas gs.gasConfig.writeCostPerByte (value.getD [])) gasWritePerByteDesc
  pure { gs with gasMeter := g, parent := ops.set gs.parent key (value.getD []) }

/-- `Has`. -/
def has (gs : GasKVStore M P) (key : Bytes) : Result (GasKVStore M P × Bool) := do
  let g ← chargeGas consume gs.gasMeter gs.gasConfig.hasCost gasHasDesc
  pure ({ gs with gasMeter := g }, ops.has gs.parent key)

/-- `Delete`: charged although the space is freed. -/
def delete (gs : GasKVStore M P) (key : Bytes) : Result (GasKVStore M P) := do
  let g ← chargeGas consume gs.gasMeter gs.gasConfig.deleteCost gasDeleteDesc
  pure { gs with gasMeter := g, parent := ops.delete gs.parent key }

end GasKVStore

/-- A call on a `KVStore`; the value of a `Set` may be nil. -/
inductive KVCall where
  | get (key : Bytes)
  | has (key : Bytes)
  | set (key : Bytes) (value : Option Bytes)
  | delete (key : Bytes)
  deriving DecidableEq, Repr

/-- What a call returns: the value `Get` read, `nil` when there is none, or what
`Has` found. -/
inductive KVReply where
  | value (value : Option Bytes)
  | found (found : Bool)
  | done
  deriving DecidableEq, Repr

namespace KVCall

/-- A call that `Set`'s checks let through. -/
def isValid : KVCall → Bool
  | set key value => key.length != 0 && value.isSome
  | _ => true

end KVCall

namespace KVStoreOps

variable {P I : Type} (ops : KVStoreOps P I)

/-- A call on the parent itself. -/
def call (p : P) : KVCall → P × KVReply
  | .get key => (p, .value (ops.get p key))
  | .has key => (p, .found (ops.has p key))
  | .set key value => (ops.set p key (value.getD []), .done)
  | .delete key => (ops.delete p key, .done)

/-- A run of calls on the parent itself: the parent it leaves, and the replies. -/
def run : P → List KVCall → P × List KVReply
  | p, [] => (p, [])
  | p, call :: calls =>
    let first := ops.call p call
    let rest := run first.1 calls
    (rest.1, first.2 :: rest.2)

/-- The gas a call charges through the store on the parent `p`: what `Get` pays
for depends on the value it reads. -/
def callCost (config : GasConfig) (p : P) : KVCall → Nat
  | .get key => config.readCostFlat.toNat + (byteGas config.readCostPerByte ((ops.get p key).getD [])).toNat
  | .has _ => config.hasCost.toNat
  | .set _ value => config.writeCostFlat.toNat + (byteGas config.writeCostPerByte (value.getD [])).toNat
  | .delete _ => config.deleteCost.toNat

/-- The gas a run of calls charges through the store, each call on the parent the
calls before it leave. -/
def runCost (config : GasConfig) : P → List KVCall → Nat
  | _, [] => 0
  | p, call :: calls => ops.callCost config p call + runCost config (ops.call p call).1 calls

end KVStoreOps

namespace GasKVStore

variable {M P I : Type} (consume : M → Gas → String → M × Option GasError) (ops : KVStoreOps P I)

/-- A call through the store. -/
def call (gs : GasKVStore M P) : KVCall → Result (GasKVStore M P × KVReply)
  | .get key => (gs.get consume ops key).map fun result => (result.1, .value result.2)
  | .has key => (gs.has consume ops key).map fun result => (result.1, .found result.2)
  | .set key value => (gs.set consume ops key value).map fun gs => (gs, .done)
  | .delete key => (gs.delete consume ops key).map fun gs => (gs, .done)

/-- A run of calls through the store, the meter shared by all of them. -/
def run (gs : GasKVStore M P) : List KVCall → Result (GasKVStore M P × List KVReply)
  | [] => .ok (gs, [])
  | call :: calls => do
    let first ← gs.call consume ops call
    let rest ← first.1.run calls
    pure (rest.1, first.2 :: rest.2)

end GasKVStore

/-- \x60gasIterator\x60: an iterator of the parent, charging the store's meter. -/
structure GasIterator (M I : Type) where
  gasMeter : M
  gasConfig : GasConfig
  parent : I

namespace GasIterator

variable {M I : Type} (consume : M → Gas → String → M × Option GasError) (iops : IteratorOps I)

/-- \x60newGasIterator\x60. -/
def newGasIterator (gasMeter : M) (gasConfig : GasConfig) (parent : I) : GasIterator M I :=
  ⟨gasMeter, gasConfig, parent⟩

/-- \x60Valid\x60. -/
def valid (gi : GasIterator M I) : Bool := iops.valid gi.parent

/-- \x60Key\x60, which charges nothing. -/
def key (gi : GasIterator M I) : Bytes := iops.key gi.parent

/-- \x60Value\x60, which charges nothing. -/
def value (gi : GasIterator M I) : Bytes := iops.value gi.parent

/-- \x60consumeSeekGas\x60: the bytes of the current value, then the flat cost of a seek. -/
def consumeSeekGas (gi : GasIterator M I) : Result (GasIterator M I) := do
  let value := gi.value iops
  let g ← chargeGas consume gi.gasMeter (byteGas gi.gasConfig.readCostPerByte value) gasValuePerByteDesc
  let g ← chargeGas consume g gi.gasConfig.iterNextCostFlat gasIterNextCostFlatDesc
  pure { gi with gasMeter := g }

/-- \x60Next\x60: a seek charged on the current pair while valid, then the parent moved. -/
def next (gi : GasIterator M I) : Result (GasIterator M I) := do
  let gi ← if gi.valid iops then gi.consumeSeekGas consume iops else pure gi
  pure { gi with parent := iops.next gi.parent }

/-- A caller's loop \x60for ; it.Valid(); it.Next()\x60 that reads each pair, with fuel
for its turns: the iterator it leaves, and the pairs read. -/
def readAll : Nat → GasIterator M I → Result (GasIterator M I × List (Bytes × Bytes))
  | 0, gi => .ok (gi, [])
  | fuel + 1, gi =>
    if gi.valid iops then do
      let pair := (gi.key iops, gi.value iops)
      let gi ← gi.next consume iops
      let rest ← readAll fuel gi
      pure (rest.1, pair :: rest.2)
    else .ok (gi, [])

end GasIterator

namespace GasKVStore

variable {M P I : Type} (consume : M → Gas → String → M × Option GasError) (ops : KVStoreOps P I)
  (iops : IteratorOps I)

/-- The parent's iterator over the domain, ascending or descending. -/
def parentIterator (gs : GasKVStore M P) (start : Bytes) (stop : Option Bytes) (ascending : Bool) : I :=
  if ascending then ops.iterator gs.parent start stop else ops.reverseIterator gs.parent start stop

/-- \x60iterator\x60, behind \x60Iterator\x60 (\x60ascending\x60) and \x60ReverseIterator\x60: a seek
is charged on creation when the iterator is valid. -/
def iterator (gs : GasKVStore M P) (start : Bytes) (stop : Option Bytes) (ascending : Bool) :
    Result (GasIterator M I) :=
  let gi := GasIterator.newGasIterator gs.gasMeter gs.gasConfig (gs.parentIterator ops start stop ascending)
  if gi.valid iops then gi.consumeSeekGas consume iops else pure gi

end GasKVStore

/-- The parent iterator \x60it\x60 has the pairs \x60lists it\x60 left: it is valid while one
is left, reads the first, and \x60Next\x60 drops it. -/
structure IteratorOps.Lists {I : Type} (iops : IteratorOps I) (lists : I → List (Bytes × Bytes)) : Prop where
  valid : ∀ it, iops.valid it = !(lists it).isEmpty
  key : ∀ {it pair rest}, lists it = pair :: rest → iops.key it = pair.1
  value : ∀ {it pair rest}, lists it = pair :: rest → iops.value it = pair.2
  next : ∀ {it pair rest}, lists it = pair :: rest → lists (iops.next it) = rest

/-- The gas of one seek, on the current value. -/
def seekCost (config : GasConfig) (value : Bytes) : Nat :=
  (byteGas config.readCostPerByte value).toNat + config.iterNextCostFlat.toNat

/-- The gas of seeks over the pairs, one each. -/
def seeksCost (config : GasConfig) (pairs : List (Bytes × Bytes)) : Nat :=
  (pairs.map fun pair => seekCost config pair.2).sum

/-- The gas of creating an iterator on the pairs: a seek on the first, if any. -/
def creationCost (config : GasConfig) : List (Bytes × Bytes) → Nat
  | [] => 0
  | pair :: _ => seekCost config pair.2

/-- The gas of creating an iterator on the pairs and reading it to the end: a seek
for each pair, and one more for the first. -/
def iterationCost (config : GasConfig) (pairs : List (Bytes × Bytes)) : Nat :=
  creationCost config pairs + seeksCost config pairs

/-! ## Each call through the store -/

theorem assertValid_of_isValid {key : Bytes} {value : Option Bytes} (valid : (KVCall.set key value).isValid) :
    assertValidKey key = .ok () ∧ assertValidValue value = .ok () := by
  simp only [KVCall.isValid, Bool.and_eq_true, bne_iff_ne, ne_eq, Option.isSome_iff_exists] at valid
  obtain ⟨nonempty, bytes, rfl⟩ := valid
  exact ⟨by rw [assertValidKey, if_neg nonempty]; rfl, rfl⟩

namespace GasKVStore

variable {M P I : Type} {consume : M → Gas → String → M × Option GasError} (meter : CountingMeter consume)
  (ops : KVStoreOps P I)

section Charges

variable (gs : GasKVStore M P)

theorem get_of_room (key : Bytes)
    (room : meter.count gs.gasMeter + ops.callCost gs.gasConfig gs.parent (.get key) ≤ meter.capacity gs.gasMeter) :
    ∃ g, gs.get consume ops key = .ok ({ gs with gasMeter := g }, ops.get gs.parent key) ∧
      meter.Charged gs.gasMeter g (ops.callCost gs.gasConfig gs.parent (.get key)) :=
  meter.bind_chargeGas_chargeGas_of_room _ gs.gasMeter _ _ _ _ room

theorem get_of_exceeds (key : Bytes)
    (past : meter.capacity gs.gasMeter < meter.count gs.gasMeter + ops.callCost gs.gasConfig gs.parent (.get key)) :
    Panicked (gs.get consume ops key) :=
  meter.bind_chargeGas_chargeGas_of_exceeds _ gs.gasMeter _ _ _ _ past

theorem set_of_room (key : Bytes) (value : Option Bytes) (valid : (KVCall.set key value).isValid)
    (room : meter.count gs.gasMeter + ops.callCost gs.gasConfig gs.parent (.set key value) ≤
      meter.capacity gs.gasMeter) :
    ∃ g, gs.set consume ops key value = .ok { gs with gasMeter := g, parent := ops.set gs.parent key (value.getD []) } ∧
      meter.Charged gs.gasMeter g (ops.callCost gs.gasConfig gs.parent (.set key value)) := by
  obtain ⟨validKey, validValue⟩ := assertValid_of_isValid valid
  rw [set, validKey, ok_bind, validValue, ok_bind]
  exact meter.bind_chargeGas_chargeGas_of_room _ gs.gasMeter _ _ _ _ room

theorem set_of_exceeds (key : Bytes) (value : Option Bytes) (valid : (KVCall.set key value).isValid)
    (past : meter.capacity gs.gasMeter < meter.count gs.gasMeter + ops.callCost gs.gasConfig gs.parent (.set key value)) :
    Panicked (gs.set consume ops key value) := by
  obtain ⟨validKey, validValue⟩ := assertValid_of_isValid valid
  rw [set, validKey, ok_bind, validValue, ok_bind]
  exact meter.bind_chargeGas_chargeGas_of_exceeds _ gs.gasMeter _ _ _ _ past

theorem has_of_room (key : Bytes)
    (room : meter.count gs.gasMeter + ops.callCost gs.gasConfig gs.parent (.has key) ≤ meter.capacity gs.gasMeter) :
    ∃ g, gs.has consume ops key = .ok ({ gs with gasMeter := g }, ops.has gs.parent key) ∧
      meter.Charged gs.gasMeter g (ops.callCost gs.gasConfig gs.parent (.has key)) :=
  meter.bind_chargeGas_of_room _ gs.gasMeter _ _ room

theorem has_of_exceeds (key : Bytes)
    (past : meter.capacity gs.gasMeter < meter.count gs.gasMeter + ops.callCost gs.gasConfig gs.parent (.has key)) :
    Panicked (gs.has consume ops key) :=
  panicked_bind (meter.chargeGas_of_exceeds gs.gasMeter _ _ past)

theorem delete_of_room (key : Bytes)
    (room : meter.count gs.gasMeter + ops.callCost gs.gasConfig gs.parent (.delete key) ≤ meter.capacity gs.gasMeter) :
    ∃ g, gs.delete consume ops key = .ok { gs with gasMeter := g, parent := ops.delete gs.parent key } ∧
      meter.Charged gs.gasMeter g (ops.callCost gs.gasConfig gs.parent (.delete key)) :=
  meter.bind_chargeGas_of_room _ gs.gasMeter _ _ room

theorem delete_of_exceeds (key : Bytes)
    (past : meter.capacity gs.gasMeter < meter.count gs.gasMeter + ops.callCost gs.gasConfig gs.parent (.delete key)) :
    Panicked (gs.delete consume ops key) :=
  panicked_bind (meter.chargeGas_of_exceeds gs.gasMeter _ _ past)

end Charges

/-- A call through the store that fits the meter does what it does on the parent,
and counts its cost. -/
theorem call_of_room (gs : GasKVStore M P) (call : KVCall) (valid : call.isValid)
    (room : meter.count gs.gasMeter + ops.callCost gs.gasConfig gs.parent call ≤ meter.capacity gs.gasMeter) :
    ∃ g, gs.call consume ops call =
        .ok ({ gs with gasMeter := g, parent := (ops.call gs.parent call).1 }, (ops.call gs.parent call).2) ∧
      meter.Charged gs.gasMeter g (ops.callCost gs.gasConfig gs.parent call) := by
  cases call with
  | get key =>
    obtain ⟨g, read, charged⟩ := get_of_room meter ops gs key room
    exact ⟨g, by rw [GasKVStore.call, read]; rfl, charged⟩
  | has key =>
    obtain ⟨g, read, charged⟩ := has_of_room meter ops gs key room
    exact ⟨g, by rw [GasKVStore.call, read]; rfl, charged⟩
  | set key value =>
    obtain ⟨g, written, charged⟩ := set_of_room meter ops gs key value valid room
    exact ⟨g, by rw [GasKVStore.call, written]; rfl, charged⟩
  | delete key =>
    obtain ⟨g, written, charged⟩ := delete_of_room meter ops gs key room
    exact ⟨g, by rw [GasKVStore.call, written]; rfl, charged⟩

/-- A call through the store whose cost does not fit the meter panics. -/
theorem call_of_exceeds (gs : GasKVStore M P) (call : KVCall) (valid : call.isValid)
    (past : meter.capacity gs.gasMeter < meter.count gs.gasMeter + ops.callCost gs.gasConfig gs.parent call) :
    Panicked (gs.call consume ops call) := by
  cases call with
  | get key => exact panicked_map_iff.mpr (get_of_exceeds meter ops gs key past)
  | has key => exact panicked_map_iff.mpr (has_of_exceeds meter ops gs key past)
  | set key value => exact panicked_map_iff.mpr (set_of_exceeds meter ops gs key value valid past)
  | delete key => exact panicked_map_iff.mpr (delete_of_exceeds meter ops gs key past)

/-! ## Runs of calls -/

theorem run_of_room (calls : List KVCall) (valid : ∀ call ∈ calls, call.isValid) :
    ∀ gs : GasKVStore M P,
      meter.count gs.gasMeter + ops.runCost gs.gasConfig gs.parent calls ≤ meter.capacity gs.gasMeter →
      ∃ g, gs.run consume ops calls =
          .ok ({ gs with gasMeter := g, parent := (ops.run gs.parent calls).1 }, (ops.run gs.parent calls).2) ∧
        meter.Charged gs.gasMeter g (ops.runCost gs.gasConfig gs.parent calls) := by
  induction calls with
  | nil =>
    intro gs _
    exact ⟨gs.gasMeter, rfl, CountingMeter.Charged.refl meter gs.gasMeter⟩
  | cons call calls induction =>
    intro gs room
    rw [KVStoreOps.runCost] at room
    -- the first call, then the others on the store it leaves, whose meter has the same capacity
    obtain ⟨g, first, charged⟩ := call_of_room meter ops gs call (valid call List.mem_cons_self) (by omega)
    have restRoom : meter.count g + ops.runCost gs.gasConfig (ops.call gs.parent call).1 calls ≤ meter.capacity g := by
      rw [charged.1, charged.2]
      omega
    obtain ⟨g', rest, charged'⟩ := induction (fun other member => valid other (List.mem_cons_of_mem _ member))
      { gs with gasMeter := g, parent := (ops.call gs.parent call).1 } restRoom
    refine ⟨g', ?_, charged.trans charged'⟩
    rw [run, first, ok_bind, rest, ok_bind]
    rfl

theorem run_of_exceeds (calls : List KVCall) (valid : ∀ call ∈ calls, call.isValid) :
    ∀ gs : GasKVStore M P, meter.count gs.gasMeter ≤ meter.capacity gs.gasMeter →
      meter.capacity gs.gasMeter < meter.count gs.gasMeter + ops.runCost gs.gasConfig gs.parent calls →
      Panicked (gs.run consume ops calls) := by
  induction calls with
  | nil =>
    intro gs within past
    rw [KVStoreOps.runCost] at past
    omega
  | cons call calls induction =>
    intro gs within past
    rw [KVStoreOps.runCost] at past
    by_cases room : meter.count gs.gasMeter + ops.callCost gs.gasConfig gs.parent call ≤ meter.capacity gs.gasMeter
    · -- the first call returns within the capacity, and the others go past it
      obtain ⟨g, first, charged⟩ := call_of_room meter ops gs call (valid call List.mem_cons_self) room
      have stillWithin : meter.count g ≤ meter.capacity g := by
        rw [charged.1, charged.2]
        exact room
      have restPast : meter.capacity g < meter.count g + ops.runCost gs.gasConfig (ops.call gs.parent call).1 calls := by
        rw [charged.1, charged.2]
        omega
      rw [run, first, ok_bind]
      exact panicked_bind (induction (fun other member => valid other (List.mem_cons_of_mem _ member))
        { gs with gasMeter := g, parent := (ops.call gs.parent call).1 } stillWithin restPast)
    · rw [run]
      exact panicked_bind (call_of_exceeds meter ops gs call (valid call List.mem_cons_self) (by omega))

end GasKVStore

/-! ## Iterators -/

namespace GasIterator

variable {M I : Type} {consume : M → Gas → String → M × Option GasError} (meter : CountingMeter consume)
  (iops : IteratorOps I)

theorem consumeSeekGas_of_room (gi : GasIterator M I)
    (room : meter.count gi.gasMeter + seekCost gi.gasConfig (gi.value iops) ≤ meter.capacity gi.gasMeter) :
    ∃ g, gi.consumeSeekGas consume iops = .ok { gi with gasMeter := g } ∧
      meter.Charged gi.gasMeter g (seekCost gi.gasConfig (gi.value iops)) :=
  meter.bind_chargeGas_chargeGas_of_room _ gi.gasMeter _ _ _ _ room

theorem consumeSeekGas_of_exceeds (gi : GasIterator M I)
    (past : meter.capacity gi.gasMeter < meter.count gi.gasMeter + seekCost gi.gasConfig (gi.value iops)) :
    Panicked (gi.consumeSeekGas consume iops) :=
  meter.bind_chargeGas_chargeGas_of_exceeds _ gi.gasMeter _ _ _ _ past

theorem next_of_room (gi : GasIterator M I) (valid : gi.valid iops = true)
    (room : meter.count gi.gasMeter + seekCost gi.gasConfig (gi.value iops) ≤ meter.capacity gi.gasMeter) :
    ∃ g, gi.next consume iops = .ok { gi with gasMeter := g, parent := iops.next gi.parent } ∧
      meter.Charged gi.gasMeter g (seekCost gi.gasConfig (gi.value iops)) := by
  obtain ⟨g, sought, charged⟩ := consumeSeekGas_of_room meter iops gi room
  exact ⟨g, by rw [next, if_pos valid, sought, ok_bind]; rfl, charged⟩

theorem next_of_exceeds (gi : GasIterator M I) (valid : gi.valid iops = true)
    (past : meter.capacity gi.gasMeter < meter.count gi.gasMeter + seekCost gi.gasConfig (gi.value iops)) :
    Panicked (gi.next consume iops) := by
  rw [next, if_pos valid]
  exact panicked_bind (consumeSeekGas_of_exceeds meter iops gi past)

section Listed

variable {lists : I → List (Bytes × Bytes)} (listed : iops.Lists lists)
include listed

theorem valid_iff (gi : GasIterator M I) : gi.valid iops = true ↔ lists gi.parent ≠ [] := by
  rw [valid, listed.valid, Bool.not_eq_true', List.isEmpty_eq_false_iff]

/-- Reading an iterator to its end returns its pairs and counts one seek for each. -/
theorem readAll_of_room (pairs : List (Bytes × Bytes)) :
    ∀ (gi : GasIterator M I) (fuel : Nat), lists gi.parent = pairs → pairs.length ≤ fuel →
      meter.count gi.gasMeter + seeksCost gi.gasConfig pairs ≤ meter.capacity gi.gasMeter →
      ∃ gi', readAll consume iops fuel gi = .ok (gi', pairs) ∧ gi'.gasConfig = gi.gasConfig ∧
        meter.Charged gi.gasMeter gi'.gasMeter (seeksCost gi.gasConfig pairs) := by
  induction pairs with
  | nil =>
    intro gi fuel listing _ _
    have invalid : gi.valid iops = false := by
      rw [Bool.eq_false_iff, ne_eq, valid_iff iops listed, listing, ne_eq, not_not]
    -- with fuel left the loop stops on the invalid iterator, and without it before
    refine ⟨gi, ?_, rfl, CountingMeter.Charged.refl meter gi.gasMeter⟩
    cases fuel with
    | zero => rfl
    | succ fuel => rw [readAll, if_neg (by rw [invalid]; decide)]
  | cons pair rest induction =>
    intro gi fuel listing enough room
    obtain ⟨fuel, rfl⟩ : ∃ left, fuel = left + 1 := ⟨fuel - 1, by simp only [List.length_cons] at enough; omega⟩
    have isValid : gi.valid iops = true := (valid_iff iops listed gi).mpr (by rw [listing]; exact List.cons_ne_nil _ _)
    have current : gi.value iops = pair.2 := listed.value listing
    have seekRoom : meter.count gi.gasMeter + seekCost gi.gasConfig (gi.value iops) ≤ meter.capacity gi.gasMeter := by
      rw [current]
      simp only [seeksCost, List.map_cons, List.sum_cons] at room
      omega
    obtain ⟨g, moved, charged⟩ := next_of_room meter iops gi isValid seekRoom
    -- the rest is read from the moved iterator, on the meter the seek left
    have restRoom : meter.count g + seeksCost gi.gasConfig rest ≤ meter.capacity g := by
      rw [charged.1, charged.2, current]
      simp only [seeksCost, List.map_cons, List.sum_cons] at room ⊢
      omega
    obtain ⟨gi', readRest, config, charged'⟩ := induction { gi with gasMeter := g, parent := iops.next gi.parent } fuel
      (listed.next listing) (by simp only [List.length_cons] at enough; omega) restRoom
    refine ⟨gi', ?_, config, ?_⟩
    · have read : (gi.key iops, gi.value iops) = pair := by
        rw [current, key, listed.key listing]
      rw [readAll, if_pos isValid]
      dsimp only
      rw [moved, ok_bind, readRest, ok_bind, read]
      rfl
    · have whole : seekCost gi.gasConfig (gi.value iops) + seeksCost gi.gasConfig rest =
          seeksCost gi.gasConfig (pair :: rest) := by
        rw [current, seeksCost, seeksCost, List.map_cons, List.sum_cons]
      rw [← whole]
      exact charged.trans charged'

theorem readAll_of_exceeds (pairs : List (Bytes × Bytes)) :
    ∀ (gi : GasIterator M I) (fuel : Nat), lists gi.parent = pairs → pairs.length ≤ fuel →
      meter.count gi.gasMeter ≤ meter.capacity gi.gasMeter →
      meter.capacity gi.gasMeter < meter.count gi.gasMeter + seeksCost gi.gasConfig pairs →
      Panicked (readAll consume iops fuel gi) := by
  induction pairs with
  | nil =>
    intro gi fuel _ _ within past
    rw [seeksCost, List.map_nil, List.sum_nil] at past
    omega
  | cons pair rest induction =>
    intro gi fuel listing enough within past
    obtain ⟨fuel, rfl⟩ : ∃ left, fuel = left + 1 := ⟨fuel - 1, by simp only [List.length_cons] at enough; omega⟩
    have isValid : gi.valid iops = true := (valid_iff iops listed gi).mpr (by rw [listing]; exact List.cons_ne_nil _ _)
    have current : gi.value iops = pair.2 := listed.value listing
    rw [seeksCost, List.map_cons, List.sum_cons, ← seeksCost, ← current] at past
    rw [readAll, if_pos isValid]
    dsimp only
    by_cases seekRoom : meter.count gi.gasMeter + seekCost gi.gasConfig (gi.value iops) ≤ meter.capacity gi.gasMeter
    · -- the seek returns, and the rest of the pairs go past the capacity
      obtain ⟨g, moved, charged⟩ := next_of_room meter iops gi isValid seekRoom
      have stillWithin : meter.count g ≤ meter.capacity g := by
        rw [charged.1, charged.2]
        exact seekRoom
      have restPast : meter.capacity g < meter.count g + seeksCost gi.gasConfig rest := by
        rw [charged.1, charged.2]
        omega
      rw [moved, ok_bind]
      exact panicked_bind (induction { gi with gasMeter := g, parent := iops.next gi.parent } fuel
        (listed.next listing) (by simp only [List.length_cons] at enough; omega) stillWithin restPast)
    · exact panicked_bind (next_of_exceeds meter iops gi isValid (by omega))

end Listed

end GasIterator

namespace GasKVStore

variable {M P I : Type} {consume : M → Gas → String → M × Option GasError} (meter : CountingMeter consume)
  (ops : KVStoreOps P I) (iops : IteratorOps I) {lists : I → List (Bytes × Bytes)} (listed : iops.Lists lists)
include listed

theorem iterator_of_room (gs : GasKVStore M P) (start : Bytes) (stop : Option Bytes) (ascending : Bool)
    (room : meter.count gs.gasMeter + creationCost gs.gasConfig (lists (gs.parentIterator ops start stop ascending)) ≤
      meter.capacity gs.gasMeter) :
    ∃ g, gs.iterator consume ops iops start stop ascending =
        .ok (GasIterator.newGasIterator g gs.gasConfig (gs.parentIterator ops start stop ascending)) ∧
      meter.Charged gs.gasMeter g (creationCost gs.gasConfig (lists (gs.parentIterator ops start stop ascending))) := by
  dsimp only [iterator]
  cases listing : lists (gs.parentIterator ops start stop ascending) with
  | nil =>
    -- an empty domain: nothing to seek
    have invalid : ¬(GasIterator.newGasIterator gs.gasMeter gs.gasConfig
        (gs.parentIterator ops start stop ascending)).valid iops = true := by
      rw [GasIterator.valid_iff iops listed, GasIterator.newGasIterator, ne_eq, not_not]
      exact listing
    exact ⟨gs.gasMeter, by rw [if_neg invalid]; rfl, CountingMeter.Charged.refl meter gs.gasMeter⟩
  | cons pair rest =>
    have isValid : (GasIterator.newGasIterator gs.gasMeter gs.gasConfig
        (gs.parentIterator ops start stop ascending)).valid iops = true := by
      rw [GasIterator.valid_iff iops listed, GasIterator.newGasIterator, listing]
      exact List.cons_ne_nil _ _
    have current : (GasIterator.newGasIterator gs.gasMeter gs.gasConfig
        (gs.parentIterator ops start stop ascending)).value iops = pair.2 := listed.value listing
    rw [listing, creationCost, ← current] at room
    obtain ⟨g, sought, charged⟩ := GasIterator.consumeSeekGas_of_room meter iops
      (GasIterator.newGasIterator gs.gasMeter gs.gasConfig (gs.parentIterator ops start stop ascending)) room
    rw [creationCost, ← current]
    exact ⟨g, by rw [if_pos isValid, sought]; rfl, charged⟩

theorem iterator_of_exceeds (gs : GasKVStore M P) (start : Bytes) (stop : Option Bytes) (ascending : Bool)
    (within : meter.count gs.gasMeter ≤ meter.capacity gs.gasMeter)
    (past : meter.capacity gs.gasMeter <
      meter.count gs.gasMeter + creationCost gs.gasConfig (lists (gs.parentIterator ops start stop ascending))) :
    Panicked (gs.iterator consume ops iops start stop ascending) := by
  dsimp only [iterator]
  cases listing : lists (gs.parentIterator ops start stop ascending) with
  | nil =>
    rw [listing, creationCost] at past
    omega
  | cons pair rest =>
    have isValid : (GasIterator.newGasIterator gs.gasMeter gs.gasConfig
        (gs.parentIterator ops start stop ascending)).valid iops = true := by
      rw [GasIterator.valid_iff iops listed, GasIterator.newGasIterator, listing]
      exact List.cons_ne_nil _ _
    have current : (GasIterator.newGasIterator gs.gasMeter gs.gasConfig
        (gs.parentIterator ops start stop ascending)).value iops = pair.2 := listed.value listing
    rw [listing, creationCost, ← current] at past
    rw [if_pos isValid]
    exact GasIterator.consumeSeekGas_of_exceeds meter iops
      (GasIterator.newGasIterator gs.gasMeter gs.gasConfig (gs.parentIterator ops start stop ascending)) past

end GasKVStore

/-- Creating an iterator over a domain of the gas-metered store and reading it to
its end returns the parent's pairs of the domain, and counts a seek for each pair
and one more for the first while that fits the meter; past the capacity of a meter
within it, it panics. -/
theorem iterator_readAll_cost {M P I : Type} {consume : M → Gas → String → M × Option GasError}
    (meter : CountingMeter consume) (ops : KVStoreOps P I) (iops : IteratorOps I)
    {lists : I → List (Bytes × Bytes)} (listed : iops.Lists lists) (gs : GasKVStore M P) (start : Bytes)
    (stop : Option Bytes) (ascending : Bool) (fuel : Nat)
    (enough : (lists (gs.parentIterator ops start stop ascending)).length ≤ fuel)
    (within : meter.count gs.gasMeter ≤ meter.capacity gs.gasMeter) :
    (meter.count gs.gasMeter + iterationCost gs.gasConfig (lists (gs.parentIterator ops start stop ascending)) ≤
        meter.capacity gs.gasMeter →
      ∃ gi, (gs.iterator consume ops iops start stop ascending >>= GasIterator.readAll consume iops fuel) =
          .ok (gi, lists (gs.parentIterator ops start stop ascending)) ∧
        meter.Charged gs.gasMeter gi.gasMeter (iterationCost gs.gasConfig (lists (gs.parentIterator ops start stop ascending)))) ∧
    (meter.capacity gs.gasMeter <
        meter.count gs.gasMeter + iterationCost gs.gasConfig (lists (gs.parentIterator ops start stop ascending)) →
      Panicked (gs.iterator consume ops iops start stop ascending >>= GasIterator.readAll consume iops fuel)) := by
  rw [iterationCost]
  constructor
  · intro room
    -- the seek on creation, then one seek for each pair read
    obtain ⟨g, created, charged⟩ := GasKVStore.iterator_of_room meter ops iops listed gs start stop ascending
      (by omega)
    have readRoom : meter.count g + seeksCost gs.gasConfig (lists (gs.parentIterator ops start stop ascending)) ≤
        meter.capacity g := by
      rw [charged.1, charged.2]
      omega
    obtain ⟨gi, readToEnd, _, charged'⟩ := GasIterator.readAll_of_room meter iops listed _
      (GasIterator.newGasIterator g gs.gasConfig (gs.parentIterator ops start stop ascending)) fuel rfl enough readRoom
    exact ⟨gi, by rw [created, ok_bind, readToEnd]; rfl, charged.trans charged'⟩
  · intro past
    by_cases room : meter.count gs.gasMeter + creationCost gs.gasConfig
        (lists (gs.parentIterator ops start stop ascending)) ≤ meter.capacity gs.gasMeter
    · obtain ⟨g, created, charged⟩ := GasKVStore.iterator_of_room meter ops iops listed gs start stop ascending room
      have stillWithin : meter.count g ≤ meter.capacity g := by
        rw [charged.1, charged.2]
        exact room
      have readPast : meter.capacity g <
          meter.count g + seeksCost gs.gasConfig (lists (gs.parentIterator ops start stop ascending)) := by
        rw [charged.1, charged.2]
        omega
      rw [created, ok_bind]
      exact GasIterator.readAll_of_exceeds meter iops listed _
        (GasIterator.newGasIterator g gs.gasConfig (gs.parentIterator ops start stop ascending)) fuel rfl enough
        stillWithin readPast
    · exact panicked_bind (GasKVStore.iterator_of_exceeds meter ops iops listed gs start stop ascending within
        (by omega))

/-! ## The contract store as a parent -/

namespace KVStore

/-- The empty store. -/
def empty : KVStore := ⟨[], List.Pairwise.nil⟩

/-- The contract store as a parent, its iterators the pairs they have left. -/
def kvStoreOps : KVStoreOps KVStore (List (Bytes × Bytes)) where
  get := get
  has := has
  set := set
  delete := delete
  iterator := iterator
  reverseIterator := reverseIterator

end KVStore

/-- The iterators of the contract store: the pairs they have left. Past the end,
where the contract leaves the calls to the implementation, they stay at the end
and read empty keys and values. -/
def listIteratorOps : IteratorOps (List (Bytes × Bytes)) where
  valid it := !it.isEmpty
  next := List.tail
  key it := (it.headD ([], [])).1
  value it := (it.headD ([], [])).2

theorem listIteratorOps_lists : listIteratorOps.Lists id where
  valid _ := rfl
  key := fun listing => by
    rw [id] at listing
    rw [listIteratorOps, listing]
    rfl
  value := fun listing => by
    rw [id] at listing
    rw [listIteratorOps, listing]
    rfl
  next := fun listing => by
    rw [id] at listing
    rw [listIteratorOps, id, listing]
    rfl

/-- Through the gas-metered store, a run of calls that fits the meter does what it
does on the parent, with the same replies, and counts the cost of each call; a run
whose costs go past the capacity of a meter within it panics. -/
theorem run_refines_parent {M P I : Type} {consume : M → Gas → String → M × Option GasError}
    (meter : CountingMeter consume) (ops : KVStoreOps P I) (gs : GasKVStore M P) (calls : List KVCall)
    (valid : ∀ call ∈ calls, call.isValid) (within : meter.count gs.gasMeter ≤ meter.capacity gs.gasMeter) :
    (meter.count gs.gasMeter + ops.runCost gs.gasConfig gs.parent calls ≤ meter.capacity gs.gasMeter →
      ∃ g, gs.run consume ops calls =
          .ok ({ gs with gasMeter := g, parent := (ops.run gs.parent calls).1 }, (ops.run gs.parent calls).2) ∧
        meter.Charged gs.gasMeter g (ops.runCost gs.gasConfig gs.parent calls)) ∧
    (meter.capacity gs.gasMeter < meter.count gs.gasMeter + ops.runCost gs.gasConfig gs.parent calls →
      Panicked (gs.run consume ops calls)) :=
  ⟨GasKVStore.run_of_room meter ops calls valid gs, GasKVStore.run_of_exceeds meter ops calls valid gs within⟩

/-- On a store of \x60KVGasConfig\x60, a write of two bytes, their read, a lookup of
another key and a delete cost 2060, 1006, 1000 and 1000: a meter of limit 5066
runs them with the replies of the store alone, and one of limit 5065 panics. -/
theorem run_refines_parent_exact_limit :
    (∃ g, (GasKVStore.newStore KVStore.empty (BasicGasMeter.newGasMeter 5066) kvGasConfig).run
        BasicGasMeter.consumeGas KVStore.kvStoreOps [.set [1] (some [7, 7]), .get [1], .has [2], .delete [1]] =
        .ok (⟨g, kvGasConfig, (KVStore.kvStoreOps.run KVStore.empty
          [.set [1] (some [7, 7]), .get [1], .has [2], .delete [1]]).1⟩,
          [.done, .value (some [7, 7]), .found false, .done]) ∧ g.consumed.toNat = 5066) ∧
      Panicked ((GasKVStore.newStore KVStore.empty (BasicGasMeter.newGasMeter 5065) kvGasConfig).run
        BasicGasMeter.consumeGas KVStore.kvStoreOps [.set [1] (some [7, 7]), .get [1], .has [2], .delete [1]]) := by
  constructor
  · obtain ⟨g, ran, charged⟩ := (run_refines_parent BasicGasMeter.countingMeter KVStore.kvStoreOps
      (GasKVStore.newStore KVStore.empty (BasicGasMeter.newGasMeter 5066) kvGasConfig)
      [.set [1] (some [7, 7]), .get [1], .has [2], .delete [1]] (by decide) (by decide)).1 (by decide)
    exact ⟨g, by rw [ran]; rfl, charged.1.trans (by decide)⟩
  · exact (run_refines_parent BasicGasMeter.countingMeter KVStore.kvStoreOps
      (GasKVStore.newStore KVStore.empty (BasicGasMeter.newGasMeter 5065) kvGasConfig)
      [.set [1] (some [7, 7]), .get [1], .has [2], .delete [1]] (by decide) (by decide)).2 (by decide)

/-- On a store of \x60KVGasConfig\x60 holding a value of three bytes and one of one
byte, a seek costs 39 and 33: creating an iterator over the whole store and reading
it to its end costs 39 + 39 + 33 = 111, the first value paid for twice, and a meter
of limit 110 panics. -/
theorem iterator_readAll_cost_first_twice :
    (∃ gi, ((GasKVStore.newStore ((KVStore.empty.set [1] [5, 5, 5]).set [2] [6]) (BasicGasMeter.newGasMeter 111)
        kvGasConfig).iterator BasicGasMeter.consumeGas KVStore.kvStoreOps listIteratorOps [] none true >>=
        GasIterator.readAll BasicGasMeter.consumeGas listIteratorOps 2) = .ok (gi, [([1], [5, 5, 5]), ([2], [6])]) ∧
      gi.gasMeter.consumed.toNat = 111) ∧
    Panicked ((GasKVStore.newStore ((KVStore.empty.set [1] [5, 5, 5]).set [2] [6]) (BasicGasMeter.newGasMeter 110)
        kvGasConfig).iterator BasicGasMeter.consumeGas KVStore.kvStoreOps listIteratorOps [] none true >>=
        GasIterator.readAll BasicGasMeter.consumeGas listIteratorOps 2) := by
  constructor
  · obtain ⟨gi, read, charged⟩ := (iterator_readAll_cost BasicGasMeter.countingMeter KVStore.kvStoreOps
      listIteratorOps listIteratorOps_lists (GasKVStore.newStore ((KVStore.empty.set [1] [5, 5, 5]).set [2] [6])
        (BasicGasMeter.newGasMeter 111) kvGasConfig) [] none true 2 (by decide) (by decide)).1 (by decide)
    exact ⟨gi, by rw [read]; rfl, charged.1.trans (by decide)⟩
  · exact (iterator_readAll_cost BasicGasMeter.countingMeter KVStore.kvStoreOps
      listIteratorOps listIteratorOps_lists (GasKVStore.newStore ((KVStore.empty.set [1] [5, 5, 5]).set [2] [6])
        (BasicGasMeter.newGasMeter 110) kvGasConfig) [] none true 2 (by decide) (by decide)).2 (by decide)

end CoreSdk.Store
