import Mathlib.Logic.Function.Basic
import Mathlib.Data.UInt
import CoreSdk.Go.Chan
import CoreSdk.Go.Schedule

/-!
# The account locker of the client

`BuildAndSend` and `SendBatch` (`client/base_client.go`) hold a lock on the
account they send from for the whole call: `base.l.Lock(baseTx.From)`, and a
deferred `Unlock`. The locker is a slice of channels of capacity one; a key's
shard is the 32-bit FNV-1 hash of its bytes modulo the number of shards.
`Lock` sends into the shard and `Unlock` receives from it.

Goroutines make these calls in any interleaving. Over every interleaving the
shards stay in step with the goroutines inside their calls (`Guarded`): a
shard is full exactly when one goroutine whose key falls in it is inside. So
no two goroutines on keys of one shard, in particular on one account, are
inside at once; an `Unlock` never blocks, and a `Lock` blocks exactly while a
goroutine on a key of its shard is inside (`run_mutual_exclusion`).
-/

namespace CoreSdk.Client

open Go

set_option autoImplicit false

/-- `concurrency`: the number of shards of the client's locker. -/
def concurrency : Nat := 16

/-- `locker`: `size` shards, each a channel; `shards i` is `shards[i]` for
`i < size`, the slice itself never changing after `NewLocker`. -/
structure Locker where
  size : Nat
  positive : 0 < size
  shards : Nat → Chan Int

/-- `NewLocker`, for a positive size: channels of capacity one. -/
def newLocker (size : Nat) (positive : 0 < size) : Locker :=
  ⟨size, positive, fun _ => Chan.make 1⟩

/-- `locker.indexFor`: 32-bit FNV-1 of the key's bytes. -/
def indexFor (key : List UInt8) : UInt32 :=
  key.foldl (fun hash b => (hash * 16777619) ^^^ b.toUInt32) 2166136261

namespace Locker

/-- `locker.getShard`, as the index of the shard: `uint(l.indexFor(key)) % uint(l.size)`. -/
def getShard (l : Locker) (key : List UInt8) : Nat := (indexFor key).toNat % l.size

/-- The locker after a send or a receive left the channel at `index` as `ch`. -/
def setShard (l : Locker) (index : Nat) (ch : Chan Int) : Locker :=
  ⟨l.size, l.positive, Function.update l.shards index ch⟩

/-- `locker.Lock`: `ch <- 1` on the key's shard, or `none` while it blocks. -/
def lock (l : Locker) (key : List UInt8) : Option Locker :=
  ((l.shards (l.getShard key)).send 1).map (l.setShard (l.getShard key))

/-- `locker.Unlock`: `<-ch` on the key's shard, or `none` while it blocks. -/
def unlock (l : Locker) (key : List UInt8) : Option Locker :=
  ((l.shards (l.getShard key)).recv).map fun received => l.setShard (l.getShard key) received.2

@[simp] theorem size_setShard (l : Locker) (index : Nat) (ch : Chan Int) : (l.setShard index ch).size = l.size :=
  rfl

@[simp] theorem shards_setShard (l : Locker) (index : Nat) (ch : Chan Int) :
    (l.setShard index ch).shards = Function.update l.shards index ch :=
  rfl

@[simp] theorem getShard_setShard (l : Locker) (index : Nat) (ch : Chan Int) (key : List UInt8) :
    (l.setShard index ch).getShard key = l.getShard key :=
  rfl

end Locker

/-- The goroutines in `BuildAndSend` or `SendBatch` calls: the locker they
share, and which of them are between their `Lock` and their deferred `Unlock`. -/
structure Clients (P : Type) where
  locker : Locker
  inside : P → Bool

/-- What a goroutine does next. -/
inductive Event (P : Type) where
  | lock (p : P)
  | unlock (p : P)
  deriving DecidableEq, Repr

namespace Clients

variable {P : Type} [DecidableEq P] (account : P → List UInt8)

/-- One event of the interleaving, or `none` when the goroutine cannot take it:
it blocks in `Lock` or `Unlock`, or it is not at that point of its call. -/
def step (s : Clients P) : Event P → Option (Clients P)
  | .lock p =>
      if s.inside p then none
      else (s.locker.lock (account p)).map fun l => ⟨l, Function.update s.inside p true⟩
  | .unlock p =>
      if s.inside p then (s.locker.unlock (account p)).map fun l => ⟨l, Function.update s.inside p false⟩
      else none

/-- An interleaving, or `none` if one of its events cannot be taken when it comes. -/
def run (s : Clients P) (events : List (Event P)) : Option (Clients P) :=
  events.foldlM (step account) s

/-- The shards in step with the goroutines inside: every channel has capacity
one, a goroutine inside has filled its shard, no two goroutines inside share a
shard, and a full shard has a goroutine inside. -/
structure Guarded (s : Clients P) : Prop where
  capacity : ∀ index, (s.locker.shards index).cap = 1
  held : ∀ p, s.inside p = true → (s.locker.shards (s.locker.getShard (account p))).buf.length = 1
  exclusive : ∀ p q, s.inside p = true → s.inside q = true →
    s.locker.getShard (account p) = s.locker.getShard (account q) → p = q
  occupied : ∀ index, (s.locker.shards index).buf ≠ [] →
    ∃ p, s.inside p = true ∧ s.locker.getShard (account p) = index

omit [DecidableEq P] in
theorem guarded_newLocker (size : Nat) (positive : 0 < size) :
    Guarded account (⟨newLocker size positive, fun _ => false⟩ : Clients P) where
  capacity _ := rfl
  held _ outside := absurd outside Bool.false_ne_true
  exclusive _ _ outside := absurd outside Bool.false_ne_true
  occupied _ filled := absurd rfl filled

variable {account}

omit [DecidableEq P] in
/-- A send or a receive keeps every channel at capacity one. -/
theorem Guarded.capacity_setShard {s : Clients P} (guarded : Guarded account s) {index : Nat} {ch : Chan Int}
    (sameCap : ch.cap = (s.locker.shards index).cap) : ∀ j, ((s.locker.setShard index ch).shards j).cap = 1 := by
  intro j
  rw [Locker.shards_setShard, Function.update_apply]
  split_ifs
  · rw [sameCap, guarded.capacity]
  · exact guarded.capacity j

/-- A goroutine outside whose `Lock` goes through found its shard empty. -/
theorem Guarded.lock_step {s : Clients P} (guarded : Guarded account s) {p : P} (outside : s.inside p = false)
    {l : Locker} (locked : s.locker.lock (account p) = some l) :
    Guarded account ⟨l, Function.update s.inside p true⟩ := by
  obtain ⟨ch, sent, rfl⟩ := Option.map_eq_some_iff.mp locked
  obtain ⟨room, sameCap, filled⟩ := Chan.of_send sent
  set index := s.locker.getShard (account p)
  have wasEmpty : (s.locker.shards index).buf = [] := by
    rw [guarded.capacity] at room
    exact List.length_eq_zero_iff.mp (Nat.lt_one_iff.mp room)
  -- no goroutine inside had a key of this shard
  have elsewhere : ∀ q, s.inside q = true → s.locker.getShard (account q) ≠ index := by
    intro q inside same
    have full := guarded.held q inside
    rw [same, wasEmpty] at full
    exact absurd full (by decide)
  constructor <;> dsimp only
  · exact guarded.capacity_setShard sameCap
  · intro q inside
    by_cases same : q = p
    · subst same
      simp [index, filled, wasEmpty]
    · rw [Function.update_of_ne same] at inside
      rw [Locker.getShard_setShard, Locker.shards_setShard, Function.update_of_ne (elsewhere q inside)]
      exact guarded.held q inside
  · intro q r insideQ insideR same
    rw [Locker.getShard_setShard, Locker.getShard_setShard] at same
    by_cases isP : q = p <;> by_cases isP' : r = p
    · rw [isP, isP']
    · rw [Function.update_of_ne isP'] at insideR
      subst isP
      exact absurd same.symm (elsewhere r insideR)
    · rw [Function.update_of_ne isP] at insideQ
      subst isP'
      exact absurd same (elsewhere q insideQ)
    · rw [Function.update_of_ne isP] at insideQ
      rw [Function.update_of_ne isP'] at insideR
      exact guarded.exclusive q r insideQ insideR same
  · intro j filledJ
    rw [Locker.shards_setShard] at filledJ
    by_cases here : j = index
    · exact ⟨p, by simp, here.symm⟩
    · rw [Function.update_of_ne here] at filledJ
      obtain ⟨q, inside, atJ⟩ := guarded.occupied j filledJ
      have other : q ≠ p := fun same => by rw [same, outside] at inside; exact Bool.false_ne_true inside
      exact ⟨q, by rw [Function.update_of_ne other]; exact inside, atJ⟩

/-- A goroutine inside whose `Unlock` goes through empties its shard. -/
theorem Guarded.unlock_step {s : Clients P} (guarded : Guarded account s) {p : P} (inside : s.inside p = true)
    {l : Locker} (unlocked : s.locker.unlock (account p) = some l) :
    Guarded account ⟨l, Function.update s.inside p false⟩ := by
  obtain ⟨⟨v, ch⟩, received, rfl⟩ := Option.map_eq_some_iff.mp unlocked
  obtain ⟨sameCap, taken⟩ := Chan.of_recv received
  set index := s.locker.getShard (account p)
  have nowEmpty : ch.buf = [] := by
    rw [guarded.held p inside] at taken
    exact List.length_eq_zero_iff.mp (by omega)
  -- every other goroutine inside has its key in another shard
  have elsewhere : ∀ q, q ≠ p → s.inside q = true → s.locker.getShard (account q) ≠ index :=
    fun q other insideQ same => other (guarded.exclusive q p insideQ inside same)
  have stillInside : ∀ q, Function.update s.inside p false q = true → q ≠ p ∧ s.inside q = true := by
    intro q insideQ
    by_cases same : q = p
    · subst same
      simp at insideQ
    · rw [Function.update_of_ne same] at insideQ
      exact ⟨same, insideQ⟩
  constructor <;> dsimp only
  · exact guarded.capacity_setShard sameCap
  · intro q insideQ
    obtain ⟨other, wasInside⟩ := stillInside q insideQ
    rw [Locker.getShard_setShard, Locker.shards_setShard,
      Function.update_of_ne (elsewhere q other wasInside)]
    exact guarded.held q wasInside
  · intro q r insideQ insideR same
    exact guarded.exclusive q r (stillInside q insideQ).2 (stillInside r insideR).2 same
  · intro j filledJ
    rw [Locker.shards_setShard] at filledJ
    by_cases here : j = index
    · rw [here, Function.update_self] at filledJ
      exact absurd nowEmpty filledJ
    · rw [Function.update_of_ne here] at filledJ
      obtain ⟨q, insideQ, atJ⟩ := guarded.occupied j filledJ
      have other : q ≠ p := fun same => here (by rw [← atJ, same])
      exact ⟨q, by rw [Function.update_of_ne other]; exact insideQ, atJ⟩

theorem Guarded.step {s s' : Clients P} (guarded : Guarded account s) {event : Event P}
    (stepped : s.step account event = some s') : Guarded account s' := by
  cases event with
  | lock p =>
      simp only [Clients.step] at stepped
      split_ifs at stepped with inside
      obtain ⟨l, locked, rfl⟩ := Option.map_eq_some_iff.mp stepped
      exact guarded.lock_step (Bool.of_not_eq_true inside) locked
  | unlock p =>
      simp only [Clients.step] at stepped
      split_ifs at stepped with inside
      obtain ⟨l, unlocked, rfl⟩ := Option.map_eq_some_iff.mp stepped
      exact guarded.unlock_step inside unlocked

theorem Guarded.run {s s' : Clients P} (guarded : Guarded account s) {events : List (Event P)}
    (ran : s.run account events = some s') : Guarded account s' :=
  run_invariant (Clients.step account) (Guarded account) (fun _ _ _ kept stepped => kept.step stepped)
    events guarded ran

/-- In a guarded state an `Unlock` never blocks. -/
theorem Guarded.unlock_enabled {s : Clients P} (guarded : Guarded account s) {p : P}
    (inside : s.inside p = true) : (s.step account (.unlock p)).isSome = true := by
  have full := guarded.held p inside
  have received : ((s.locker.shards (s.locker.getShard (account p))).recv).isSome = true := by
    rw [Option.isSome_iff_ne_none, ne_eq, Chan.recv_eq_none_iff]
    intro empty
    rw [empty] at full
    exact absurd full (by decide)
  simp only [Clients.step, inside, if_true, Locker.unlock, Option.isSome_map]
  exact received

/-- In a guarded state a `Lock` blocks exactly while a goroutine on a key of
the same shard is inside. -/
theorem Guarded.lock_blocked_iff {s : Clients P} (guarded : Guarded account s) {p : P}
    (outside : s.inside p = false) :
    s.step account (.lock p) = none ↔
      ∃ q, s.inside q = true ∧ s.locker.getShard (account q) = s.locker.getShard (account p) := by
  simp only [Clients.step, outside, Bool.false_eq_true, if_false, Locker.lock, Option.map_eq_none_iff,
    Chan.send_eq_none_iff, guarded.capacity]
  constructor
  · intro full
    apply guarded.occupied
    intro empty
    rw [empty] at full
    exact absurd full (by decide)
  · rintro ⟨q, inside, same⟩
    rw [← same, guarded.held q inside]

/-- Over every interleaving of `Lock` and `Unlock` calls on a fresh locker: no
two goroutines inside share a shard, so none share an account; a goroutine
inside can always `Unlock`; and a goroutine outside blocks in `Lock` exactly
while a goroutine on a key of its shard is inside. -/
theorem run_mutual_exclusion (size : Nat) (positive : 0 < size) (events : List (Event P)) {s : Clients P}
    (ran : (⟨newLocker size positive, fun _ => false⟩ : Clients P).run account events = some s) :
    (∀ p q, p ≠ q → s.inside p = true → s.inside q = true →
      s.locker.getShard (account p) ≠ s.locker.getShard (account q) ∧ account p ≠ account q) ∧
    (∀ p, s.inside p = true → (s.step account (.unlock p)).isSome = true) ∧
    (∀ p, s.inside p = false → (s.step account (.lock p) = none ↔
      ∃ q, s.inside q = true ∧ s.locker.getShard (account q) = s.locker.getShard (account p))) := by
  have guarded := (guarded_newLocker account size positive).run ran
  refine ⟨fun p q other insideP insideQ => ?_, fun p inside => guarded.unlock_enabled inside,
    fun p outside => guarded.lock_blocked_iff outside⟩
  have apart : s.locker.getShard (account p) ≠ s.locker.getShard (account q) :=
    fun same => other (guarded.exclusive p q insideP insideQ same)
  exact ⟨apart, fun same => apart (by rw [same])⟩

/-- Two goroutines on the keys `a` and `q`, which share a shard of sixteen:
once the first is inside, the second blocks in `Lock`. -/
theorem run_mutual_exclusion_a_q :
    let account : Bool → List UInt8 := fun p => if p then [97] else [113]
    ∃ s, (⟨newLocker concurrency (by decide), fun _ => false⟩ : Clients Bool).run account [.lock true] = some s ∧
      ((∀ p q, p ≠ q → s.inside p = true → s.inside q = true →
        s.locker.getShard (account p) ≠ s.locker.getShard (account q) ∧ account p ≠ account q) ∧
      (∀ p, s.inside p = true → (s.step account (.unlock p)).isSome = true) ∧
      (∀ p, s.inside p = false → (s.step account (.lock p) = none ↔
        ∃ q, s.inside q = true ∧ s.locker.getShard (account q) = s.locker.getShard (account p)))) := by
  intro account
  have returned : ((⟨newLocker concurrency (by decide), fun _ => false⟩ : Clients Bool).run
      account [.lock true]).isSome = true := by
    decide
  exact ⟨_, (Option.some_get returned).symm,
    run_mutual_exclusion concurrency (by decide) [.lock true] (Option.some_get returned).symm⟩

end Clients

end CoreSdk.Client
