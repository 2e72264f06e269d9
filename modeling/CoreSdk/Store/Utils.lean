import Mathlib.Data.List.Lex
import CoreSdk.Go.Runtime

/-!
# Prefix ranges of a key-value store

`PrefixEndBytes` (`store/utils.go`) computes the exclusive end of the range of
keys that start with a prefix: it drops the trailing `0xFF` bytes of the prefix
and increments the last byte left, and it returns `nil`, no end, when every
byte is `0xFF`. `KVStorePrefixIterator` iterates the store from the prefix to
that end.

Keys are compared as `bytes.Compare` does, lexicographically with a proper
prefix first, which is Lean's order on `List UInt8`. The range is then exactly
the keys with the prefix (`prefixEndBytes_bounds`). A store is the finite map
behind the `KVStore` interface, as its sorted list of pairs; its calls are the
contract the interface states, and its `Iterator` gives the pairs of the domain
in order.
-/

namespace CoreSdk.Store

open Go

set_option autoImplicit false

/-- Go's `[]byte`. -/
abbrev Bytes := List UInt8

/-- The content of a `KVStore`: its pairs, sorted strictly by key. -/
structure KVStore where
  pairs : List (Bytes × Bytes)
  sorted : pairs.Pairwise (·.1 < ·.1)

namespace KVStore

/-- Whether a key is in the domain from `start`, inclusive, to `stop`, exclusive,
with no end for `nil`. -/
def inDomain (start : Bytes) (stop : Option Bytes) (key : Bytes) : Bool :=
  decide (start ≤ key) && match stop with
    | none => true
    | some stop => decide (key < stop)

/-- `Iterator(start, end)`: the pairs of the domain in ascending order. -/
def iterator (kvs : KVStore) (start : Bytes) (stop : Option Bytes) : List (Bytes × Bytes) :=
  kvs.pairs.filter fun pair => inDomain start stop pair.1

/-- `ReverseIterator(start, end)`: the pairs of the domain in descending order. -/
def reverseIterator (kvs : KVStore) (start : Bytes) (stop : Option Bytes) : List (Bytes × Bytes) :=
  (kvs.iterator start stop).reverse

/-- `Get`: the value of the key, `nil` when it has none. -/
def get (kvs : KVStore) (key : Bytes) : Option Bytes :=
  (kvs.pairs.find? fun pair => pair.1 == key).map Prod.snd

/-- `Has`. -/
def has (kvs : KVStore) (key : Bytes) : Bool := (kvs.get key).isSome

/-- The pairs with the key set to the value: in place of its old value, or where
the key falls in the order. -/
def insertPair (key value : Bytes) : List (Bytes × Bytes) → List (Bytes × Bytes)
  | [] => [(key, value)]
  | pair :: pairs =>
    if key < pair.1 then (key, value) :: pair :: pairs
    else if key = pair.1 then (key, value) :: pairs
    else pair :: insertPair key value pairs

theorem mem_insertPair {key value : Bytes} {pairs : List (Bytes × Bytes)} {pair : Bytes × Bytes}
    (member : pair ∈ insertPair key value pairs) : pair.1 = key ∨ pair ∈ pairs := by
  induction pairs with
  | nil =>
    rw [insertPair, List.mem_singleton] at member
    exact .inl (by rw [member])
  | cons first rest induction =>
    unfold insertPair at member
    split_ifs at member
    · rcases List.mem_cons.mp member with rfl | kept
      · exact .inl rfl
      · exact .inr kept
    · rcases List.mem_cons.mp member with rfl | kept
      · exact .inl rfl
      · exact .inr (List.mem_cons_of_mem _ kept)
    · rcases List.mem_cons.mp member with rfl | later
      · exact .inr List.mem_cons_self
      · rcases induction later with isKey | kept
        · exact .inl isKey
        · exact .inr (List.mem_cons_of_mem _ kept)

theorem sorted_insertPair (key value : Bytes) {pairs : List (Bytes × Bytes)}
    (sorted : pairs.Pairwise (·.1 < ·.1)) : (insertPair key value pairs).Pairwise (·.1 < ·.1) := by
  induction pairs with
  | nil => exact List.pairwise_singleton _ _
  | cons first rest induction =>
    obtain ⟨above, restSorted⟩ := List.pairwise_cons.mp sorted
    unfold insertPair
    split_ifs with below same
    · -- the new key goes first, below the first key and so below every other
      refine List.Pairwise.cons (fun pair member => ?_) sorted
      rcases List.mem_cons.mp member with rfl | later
      · exact below
      · exact List.lt_trans below (above pair later)
    · refine List.Pairwise.cons (fun pair member => ?_) restSorted
      rw [same]
      exact above pair member
    · have firstBelow : first.1 < key := Std.lt_of_le_of_ne (List.not_lt.mp below) (Ne.symm same)
      refine List.Pairwise.cons (fun pair member => ?_) (induction restSorted)
      rcases mem_insertPair member with isKey | kept
      · rw [isKey]
        exact firstBelow
      · exact above pair kept

/-- `Set`. -/
def set (kvs : KVStore) (key value : Bytes) : KVStore :=
  ⟨insertPair key value kvs.pairs, sorted_insertPair key value kvs.sorted⟩

/-- `Delete`. -/
def delete (kvs : KVStore) (key : Bytes) : KVStore :=
  ⟨kvs.pairs.filter fun pair => pair.1 != key, kvs.sorted.filter _⟩

end KVStore

/-- The loop of `PrefixEndBytes` on `end`, a copy of the prefix: increment the
last byte, or drop it when it is `0xFF` and go on. Each turn drops a byte, so
the length of the prefix is fuel enough. -/
def prefixEndLoop : Nat → Bytes → Option Bytes
  | 0, _ => none
  | fuel + 1, stop =>
    match stop.getLast? with
    | none => none
    | some last =>
      if last ≠ 255 then some (stop.dropLast ++ [last + 1])
      else
        let stop := stop.dropLast
        if stop.length = 0 then none
        else prefixEndLoop fuel stop

/-- `PrefixEndBytes`. -/
def prefixEndBytes (keyPrefix : Bytes) : Option Bytes :=
  if keyPrefix.length = 0 then none
  else prefixEndLoop keyPrefix.length keyPrefix

/-- `KVStorePrefixIterator`. -/
def kvStorePrefixIterator (kvs : KVStore) (keyPrefix : Bytes) : List (Bytes × Bytes) :=
  kvs.iterator keyPrefix (prefixEndBytes keyPrefix)

/-- `KVStoreReversePrefixIterator`. -/
def kvStoreReversePrefixIterator (kvs : KVStore) (keyPrefix : Bytes) : List (Bytes × Bytes) :=
  kvs.reverseIterator keyPrefix (prefixEndBytes keyPrefix)

/-! ## The end of a prefix, read from the front -/

/-- The end of the range of a prefix, by recursion from its first byte: the first
byte followed by the end of the rest, or the first byte incremented when the
rest is all `0xFF`. -/
def endFromFront : Bytes → Option Bytes
  | [] => none
  | b :: rest =>
    match endFromFront rest with
    | some stop => some (b :: stop)
    | none => if b = 255 then none else some [b + 1]

theorem endFromFront_append_singleton (front : Bytes) (last : UInt8) :
    endFromFront (front ++ [last]) = if last ≠ 255 then some (front ++ [last + 1]) else endFromFront front := by
  induction front with
  | nil =>
    by_cases full : last = 255 <;> simp [endFromFront, full]
  | cons b front induction =>
    rw [List.cons_append, endFromFront, induction]
    by_cases full : last = 255
    · simp [full, endFromFront]
    · simp [full]

/-- The loop computes the end read from the front, with as much fuel as bytes. -/
theorem prefixEndLoop_eq (fuel : Nat) (stop : Bytes) (nonempty : stop ≠ []) (enough : stop.length ≤ fuel) :
    prefixEndLoop fuel stop = endFromFront stop := by
  induction fuel generalizing stop with
  | zero =>
    have : stop.length = 0 := by omega
    exact absurd (List.eq_nil_of_length_eq_zero this) nonempty
  | succ fuel induction =>
    obtain ⟨front, last, split⟩ := (List.eq_nil_or_concat stop).resolve_left nonempty
    rw [List.concat_eq_append] at split
    subst split
    rw [prefixEndLoop, List.getLast?_concat, endFromFront_append_singleton, List.dropLast_concat]
    dsimp only
    split_ifs with kept empty
    · rfl
    · rw [List.eq_nil_of_length_eq_zero empty]
      rfl
    · have shorter : front.length ≤ fuel := by
        rw [List.length_append, List.length_singleton] at enough
        omega
      exact induction front (fun isNil => empty (by rw [isNil]; rfl)) shorter

theorem prefixEndBytes_eq (keyPrefix : Bytes) : prefixEndBytes keyPrefix = endFromFront keyPrefix := by
  unfold prefixEndBytes
  split_ifs with empty
  · rw [List.eq_nil_of_length_eq_zero empty]
    rfl
  · exact prefixEndLoop_eq _ _ (fun isNil => empty (by rw [isNil]; rfl)) le_rfl

/-! ## The range of a prefix -/

theorem cons_lt_increment {b c : UInt8} (notFull : b ≠ 255) (rest : Bytes) :
    c :: rest < [b + 1] ↔ c ≤ b := by
  have small : b.toNat < 255 := by
    have := UInt8.toNat_lt b
    have : b.toNat ≠ 255 := fun same => notFull (UInt8.toNat_inj.mp same)
    omega
  have sum : (b + 1).toNat = b.toNat + 1 := by
    rw [UInt8.toNat_add, UInt8.toNat_one]
    omega
  rw [List.cons_lt_cons_iff, UInt8.lt_iff_toNat_lt, UInt8.le_iff_toNat_le, sum]
  constructor
  · rintro (below | ⟨same, tooShort⟩)
    · omega
    · exact absurd tooShort (List.not_lt_nil _)
  · intro atMost
    exact .inl (by omega)

/-- A key extends a prefix exactly when it is at least the prefix and below its
end, if it has one. -/
theorem isPrefix_iff_endFromFront (keyPrefix key : Bytes) :
    keyPrefix <+: key ↔ keyPrefix ≤ key ∧ ∀ stop, endFromFront keyPrefix = some stop → key < stop := by
  induction keyPrefix generalizing key with
  | nil => simp [endFromFront, List.nil_le]
  | cons b rest induction =>
    cases key with
    | nil =>
      simp only [List.prefix_nil, reduceCtorEq, false_iff, not_and]
      intro above
      exact absurd above (fun le => le (List.nil_lt_cons _ _))
    | cons c key =>
      rw [List.cons_prefix_cons, induction key, List.cons_le_cons_iff]
      -- the end of the rest decides how the first bytes compare
      cases rangeEnd : endFromFront rest with
      | some stop =>
        simp only [endFromFront, rangeEnd, Option.some.injEq, forall_eq', List.cons_lt_cons_iff]
        constructor
        · rintro ⟨rfl, atLeast, below⟩
          exact ⟨.inr ⟨rfl, atLeast⟩, .inr ⟨rfl, below⟩⟩
        · rintro ⟨(above | ⟨rfl, atLeast⟩), (below | ⟨same, below⟩)⟩
          · exact absurd (UInt8.lt_trans above below) (UInt8.lt_irrefl _)
          · exact absurd above (by rw [same]; exact UInt8.lt_irrefl _)
          · exact absurd below (UInt8.lt_irrefl _)
          · exact ⟨rfl, atLeast, below⟩
      | none =>
        simp only [endFromFront, rangeEnd, reduceCtorEq, false_implies, implies_true, and_true]
        by_cases full : b = 255
        · simp only [full, reduceIte, reduceCtorEq, false_implies, implies_true, and_true]
          constructor
          · rintro ⟨rfl, atLeast⟩
            exact .inr ⟨rfl, atLeast⟩
          · rintro (above | ⟨rfl, atLeast⟩)
            · have top : c ≤ 255 := UInt8.le_iff_toNat_le.mpr (by have := UInt8.toNat_lt c; simp only [UInt8.reduceToNat]; omega)
              exact absurd above (UInt8.not_lt.mpr top)
            · exact ⟨rfl, atLeast⟩
        · simp only [full, reduceIte, Option.some.injEq, forall_eq', cons_lt_increment full]
          constructor
          · rintro ⟨rfl, atLeast⟩
            exact ⟨.inr ⟨rfl, atLeast⟩, UInt8.le_rfl⟩
          · rintro ⟨(above | ⟨rfl, atLeast⟩), atMost⟩
            · exact absurd above (UInt8.not_lt.mpr atMost)
            · exact ⟨rfl, atLeast⟩

theorem endFromFront_eq_none_iff (keyPrefix : Bytes) :
    endFromFront keyPrefix = none ↔ ∀ b ∈ keyPrefix, b = 255 := by
  induction keyPrefix with
  | nil => simp [endFromFront]
  | cons b rest induction =>
    rw [endFromFront, List.forall_mem_cons, ← induction]
    cases endFromFront rest with
    | some stop => simp
    | none => by_cases full : b = 255 <;> simp [full]

theorem prefixEndBytes_bounds (keyPrefix : Bytes) :
    (∀ key, keyPrefix <+: key ↔ keyPrefix ≤ key ∧
      (prefixEndBytes keyPrefix = none ∨ ∃ stop, prefixEndBytes keyPrefix = some stop ∧ key < stop)) ∧
    (prefixEndBytes keyPrefix = none ↔ ∀ b ∈ keyPrefix, b = 255) ∧
    ∀ fuel, keyPrefix.length ≤ fuel → keyPrefix ≠ [] → prefixEndLoop fuel keyPrefix = prefixEndBytes keyPrefix := by
  rw [prefixEndBytes_eq]
  refine ⟨fun key => ?_, endFromFront_eq_none_iff keyPrefix, fun fuel enough nonempty =>
    prefixEndLoop_eq fuel keyPrefix nonempty enough⟩
  rw [isPrefix_iff_endFromFront]
  -- no end, or an end above the key
  cases endFromFront keyPrefix with
  | none => simp
  | some stop => simp

/-- The prefix `01 FF` ends at `02`: the keys that have it are those from `01 FF`
up to `02`. -/
theorem prefixEndBytes_bounds_ff :
    prefixEndBytes [1, 255] = some [2] ∧ ∀ key : Bytes, [1, 255] <+: key ↔ [1, 255] ≤ key ∧ key < [2] := by
  have ends : prefixEndBytes [1, 255] = some [2] := by decide
  refine ⟨ends, fun key => ?_⟩
  rw [(prefixEndBytes_bounds [1, 255]).1 key, ends]
  simp

/-- The prefix iterator yields the pairs whose keys have the prefix, in order. -/
theorem kvStorePrefixIterator_eq (kvs : KVStore) (keyPrefix : Bytes) :
    kvStorePrefixIterator kvs keyPrefix = kvs.pairs.filter fun pair => decide (keyPrefix <+: pair.1) := by
  rw [kvStorePrefixIterator, KVStore.iterator, prefixEndBytes_eq]
  apply List.filter_congr
  intro pair _
  rw [Bool.eq_iff_iff, decide_eq_true_iff, isPrefix_iff_endFromFront]
  cases endFromFront keyPrefix with
  | none => simp [KVStore.inDomain]
  | some stop => simp [KVStore.inDomain]

end CoreSdk.Store
