import Mathlib
import CoreSdk.Store.Utils

/-!
# Paginated prefix iterators

`KVStorePrefixIteratorPaginated` (`store/iterator.go`) wraps the prefix
iterator in a `PaginatedIterator`: `skip` first advances the wrapped iterator
`(page - 1) * limit` times, and `Valid` then stops after `limit` calls of
`Next`. The wrapped iterator is the list of pairs it has yet to visit.

The skip count is computed in `uint`, here `uint64`, and for a large page and
limit the product wraps: the page read is the one at the wrapped offset
(`kvStorePrefixIteratorPaginated_window`), not the page asked for.
-/

namespace CoreSdk.Store

open Go

set_option autoImplicit false

/-- `PaginatedIterator`: the wrapped iterator, `page`, `limit` and `iterated`. -/
structure PaginatedIterator where
  iterator : List (Bytes × Bytes)
  page : UInt64
  limit : UInt64
  iterated : UInt64

namespace PaginatedIterator

/-- The loop of `skip`: `Next` of the wrapped iterator `i` times, while it is valid. -/
def skipLoop : UInt64 → List (Bytes × Bytes) → List (Bytes × Bytes)
  | _, [] => []
  | i, pair :: rest => if i > 0 then skipLoop (i - 1) rest else pair :: rest

/-- `skip`. -/
def skip (pi : PaginatedIterator) : PaginatedIterator :=
  { pi with iterator := skipLoop ((pi.page - 1) * pi.limit) pi.iterator }

/-- `Valid`: below the limit and the wrapped iterator valid. -/
def valid (pi : PaginatedIterator) : Bool :=
  if pi.iterated ≥ pi.limit then false else !pi.iterator.isEmpty

/-- `Next`, which panics once the limit is reached. -/
def next (pi : PaginatedIterator) : Result PaginatedIterator :=
  if !pi.valid then panicWith ("PaginatedIterator reached limit " ++ toString pi.limit)
  else pure { pi with iterator := pi.iterator.tail, iterated := pi.iterated + 1 }

/-- `Key` of the wrapped iterator, read while it is valid. -/
def key (pi : PaginatedIterator) : Bytes :=
  match pi.iterator with
  | [] => []
  | pair :: _ => pair.1

/-- The caller's loop `for ; it.Valid(); it.Next()`, collecting `it.Key()`, with
fuel for as many turns. -/
def keysFor : Nat → PaginatedIterator → Result (List Bytes)
  | 0, _ => pure []
  | fuel + 1, pi =>
    if pi.valid then do
      let next ← pi.next
      let keys ← keysFor fuel next
      pure (pi.key :: keys)
    else pure []

/-- The keys read until the iterator is no longer valid; each turn visits a
pair, so the pairs left are fuel enough. -/
def keys (pi : PaginatedIterator) : Result (List Bytes) := keysFor pi.iterator.length pi

end PaginatedIterator

/-- `KVStorePrefixIteratorPaginated`. -/
def kvStorePrefixIteratorPaginated (kvs : KVStore) (keyPrefix : Bytes) (page limit : UInt64) :
    PaginatedIterator :=
  PaginatedIterator.skip ⟨kvStorePrefixIterator kvs keyPrefix, page, limit, 0⟩

/-- `KVStoreReversePrefixIteratorPaginated`. -/
def kvStoreReversePrefixIteratorPaginated (kvs : KVStore) (keyPrefix : Bytes) (page limit : UInt64) :
    PaginatedIterator :=
  PaginatedIterator.skip ⟨kvStoreReversePrefixIterator kvs keyPrefix, page, limit, 0⟩

namespace PaginatedIterator

theorem skipLoop_eq (i : UInt64) (pairs : List (Bytes × Bytes)) : skipLoop i pairs = pairs.drop i.toNat := by
  induction pairs generalizing i with
  | nil => rw [skipLoop, List.drop_nil]
  | cons pair rest induction =>
    rw [skipLoop]
    split_ifs with positive
    · have count : i.toNat = (i - 1).toNat + 1 := by
        rw [UInt64.toNat_sub_of_le _ _ (UInt64.le_iff_toNat_le.mpr (by simp; exact UInt64.lt_iff_toNat_lt.mp positive))]
        have := UInt64.lt_iff_toNat_lt.mp positive
        simp only [UInt64.toNat_one] at *
        omega
      rw [induction, count, List.drop_succ_cons]
    · have zero : i.toNat = 0 := by
        have := UInt64.lt_iff_toNat_lt.not.mp positive
        simp only [UInt64.toNat_zero] at this
        omega
      rw [zero, List.drop_zero]

/-- The caller's loop reads the keys of the pairs left, up to the limit. -/
theorem keysFor_eq (fuel : Nat) (pi : PaginatedIterator) (enough : pi.iterator.length ≤ fuel)
    (below : pi.iterated ≤ pi.limit) :
    keysFor fuel pi = .ok ((pi.iterator.take (pi.limit.toNat - pi.iterated.toNat)).map Prod.fst) := by
  induction fuel generalizing pi with
  | zero =>
    rw [List.eq_nil_of_length_eq_zero (Nat.le_zero.mp enough)]
    simp [keysFor]
  | succ fuel induction =>
    obtain ⟨pairs, page, limit, iterated⟩ := pi
    dsimp only at enough below ⊢
    have belowNat := UInt64.le_iff_toNat_le.mp below
    cases pairs with
    | nil => simp [keysFor, valid]
    | cons pair rest =>
      by_cases full : iterated ≥ limit
      · have same : iterated.toNat = limit.toNat := by
          have := UInt64.le_iff_toNat_le.mp full
          omega
        simp [keysFor, valid, full, same]
      · -- a valid iterator: one key, and the loop goes on one step further
        have step : (⟨pair :: rest, page, limit, iterated⟩ : PaginatedIterator).next =
            .ok ⟨rest, page, limit, iterated + 1⟩ := by
          simp [next, valid, full]
        have count : (iterated + 1).toNat = iterated.toNat + 1 := by
          have := UInt64.lt_iff_toNat_lt.mp (UInt64.not_le.mp full)
          rw [UInt64.toNat_add, UInt64.toNat_one]
          have := UInt64.toNat_lt limit
          omega
        have more : iterated + 1 ≤ limit := by
          apply UInt64.le_iff_toNat_le.mpr
          rw [count]
          exact UInt64.lt_iff_toNat_lt.mp (UInt64.not_le.mp full)
        have room : limit.toNat - iterated.toNat = (limit.toNat - (iterated + 1).toNat) + 1 := by
          have := UInt64.lt_iff_toNat_lt.mp (UInt64.not_le.mp full)
          omega
        have rest_keys := induction ⟨rest, page, limit, iterated + 1⟩
          (by simp only [List.length_cons] at enough; exact Nat.le_of_succ_le_succ enough) more
        simp only [keysFor, valid, if_neg full, List.isEmpty_cons, Bool.not_false, reduceIte, step, ok_bind,
          rest_keys, pure_eq_ok, room, List.take_succ_cons, List.map_cons]
        rfl

/-- The keys of a fresh iterator after its skip: a `limit` of them from the
wrapped offset `(page - 1) * limit`. -/
theorem keys_skip (pairs : List (Bytes × Bytes)) (page limit : UInt64) :
    (skip ⟨pairs, page, limit, 0⟩).keys =
      .ok (((pairs.drop ((page - 1) * limit).toNat).take limit.toNat).map Prod.fst) := by
  rw [keys, keysFor_eq _ _ le_rfl UInt64.zero_le]
  simp [skip, skipLoop_eq]

end PaginatedIterator

/-- The skip count in `uint64`: the exact product modulo `2^64`. -/
theorem skipCount_toNat (page limit : UInt64) (positive : 1 ≤ page) :
    ((page - 1) * limit).toNat = (page.toNat - 1) * limit.toNat % 2 ^ 64 := by
  rw [UInt64.toNat_mul, UInt64.toNat_sub_of_le _ _ positive, UInt64.toNat_one]

theorem kvStorePrefixIteratorPaginated_window (kvs : KVStore) (keyPrefix : Bytes) (page limit : UInt64)
    (positive : 1 ≤ page) :
    (kvStorePrefixIteratorPaginated kvs keyPrefix page limit).keys =
      .ok ((((kvs.pairs.filter fun pair => decide (keyPrefix <+: pair.1)).drop
        ((page.toNat - 1) * limit.toNat % 2 ^ 64)).take limit.toNat).map Prod.fst) ∧
    (kvStoreReversePrefixIteratorPaginated kvs keyPrefix page limit).keys =
      .ok ((((kvs.pairs.filter fun pair => decide (keyPrefix <+: pair.1)).reverse.drop
        ((page.toNat - 1) * limit.toNat % 2 ^ 64)).take limit.toNat).map Prod.fst) ∧
    ∀ first rest, kvs.pairs.filter (fun pair => decide (keyPrefix <+: pair.1)) = first :: rest →
      0 < limit.toNat → 2 ^ 64 ∣ (page.toNat - 1) * limit.toNat →
        ∃ keys, (kvStorePrefixIteratorPaginated kvs keyPrefix page limit).keys = .ok (first.1 :: keys) := by
  have count := skipCount_toNat page limit positive
  have forward : (kvStorePrefixIteratorPaginated kvs keyPrefix page limit).keys =
      .ok ((((kvs.pairs.filter fun pair => decide (keyPrefix <+: pair.1)).drop
        ((page.toNat - 1) * limit.toNat % 2 ^ 64)).take limit.toNat).map Prod.fst) := by
    rw [kvStorePrefixIteratorPaginated, PaginatedIterator.keys_skip, count, kvStorePrefixIterator_eq]
  refine ⟨forward, ?_, fun first rest prefixed nonzero wraps => ?_⟩
  · rw [kvStoreReversePrefixIteratorPaginated, PaginatedIterator.keys_skip, count, kvStoreReversePrefixIterator,
      KVStore.reverseIterator, ← kvStorePrefixIterator, kvStorePrefixIterator_eq]
  · -- the product wraps to zero, so the page read is the first one
    have zero : (page.toNat - 1) * limit.toNat % 2 ^ 64 = 0 := Nat.mod_eq_zero_of_dvd wraps
    rw [forward, prefixed, zero, List.drop_zero]
    obtain ⟨k, atLeastOne⟩ : ∃ k, limit.toNat = k + 1 := ⟨limit.toNat - 1, by omega⟩
    rw [atLeastOne, List.take_succ_cons, List.map_cons]
    exact ⟨_, rfl⟩

/-- One key under the prefix, read at page `2^32 + 1` of `2^32` keys: the pages
before it hold `2^64` keys, more than the store, and yet the key is read. -/
theorem kvStorePrefixIteratorPaginated_window_wrapped :
    (kvStorePrefixIteratorPaginated ⟨[([1], [2])], List.pairwise_singleton _ _⟩ [1] (2 ^ 32 + 1) (2 ^ 32)).keys =
      .ok [[1]] ∧ 1 < (2 ^ 32 + 1 - 1) * 2 ^ 32 := by
  refine ⟨?_, by decide⟩
  rw [(kvStorePrefixIteratorPaginated_window ⟨[([1], [2])], List.pairwise_singleton _ _⟩ [1] (2 ^ 32 + 1) (2 ^ 32)
    (by decide)).1]
  decide

end CoreSdk.Store
