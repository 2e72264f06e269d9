import CoreSdk.Store.Utils

/-!
# Differences between two stores

`DiffKVStores` (`store/utils.go`) walks both stores from their first key, one
pair of each a turn, and reports the two pairs of a turn when no skipped prefix
starts either key and the keys or the values differ. Once a store is done, its
side of a turn is the zero pair `kv.Pair{}`.

So the loop compares the pairs at equal positions, not the pairs of equal
keys (`diffKVStores_pairs_by_position`). On two stores with the same keys this
is the set of keys whose values differ. A key that only one store holds shifts
every later comparison, and pairs of keys the two stores agree on are then
reported too.
-/

namespace CoreSdk.Store

set_option autoImplicit false

/-- `kv.Pair`: a key and its value. -/
abbrev Pair := Bytes × Bytes

/-- `kv.Pair{}`, the side of a turn once its store is done: nil key and value. -/
def zeroPair : Pair := ([], [])

/-- The test of a turn: `compareValue`, no skipped prefix starting either key
(`bytes.HasPrefix`), and then the keys or the values differ. -/
def isReported (prefixesToSkip : List Bytes) (kvA kvB : Pair) : Bool :=
  let compareValue := !prefixesToSkip.any fun keyPrefix => keyPrefix.isPrefixOf kvA.1 || keyPrefix.isPrefixOf kvB.1
  compareValue && (kvA.1 != kvB.1 || kvA.2 != kvB.2)

/-- The appends of a turn to `kvAs` and `kvBs`. -/
def recordPairs (prefixesToSkip : List Bytes) (kvA kvB : Pair) (diffs : List Pair × List Pair) :
    List Pair × List Pair :=
  if isReported prefixesToSkip kvA kvB then (diffs.1 ++ [kvA], diffs.2 ++ [kvB]) else diffs

/-- The loop of `DiffKVStores`, over the pairs each iterator has yet to visit. -/
def diffLoop (prefixesToSkip : List Bytes) (diffs : List Pair × List Pair) :
    List Pair → List Pair → List Pair × List Pair
  | [], [] => diffs
  | kvA :: iterA, [] => diffLoop prefixesToSkip (recordPairs prefixesToSkip kvA zeroPair diffs) iterA []
  | [], kvB :: iterB => diffLoop prefixesToSkip (recordPairs prefixesToSkip zeroPair kvB diffs) [] iterB
  | kvA :: iterA, kvB :: iterB => diffLoop prefixesToSkip (recordPairs prefixesToSkip kvA kvB diffs) iterA iterB

/-- `DiffKVStores`, on `Iterator(nil, nil)` of each store. -/
def diffKVStores (a b : KVStore) (prefixesToSkip : List Bytes) : List Pair × List Pair :=
  diffLoop prefixesToSkip ([], []) (a.iterator [] none) (b.iterator [] none)

/-- The two pairs of each turn, position by position, the zero pair once a side is done. -/
def turns : List Pair → List Pair → List (Pair × Pair)
  | [], iterB => iterB.map fun kvB => (zeroPair, kvB)
  | kvA :: iterA, [] => (kvA, zeroPair) :: turns iterA []
  | kvA :: iterA, kvB :: iterB => (kvA, kvB) :: turns iterA iterB

/-- The turns the loop reports. -/
def reportedTurns (prefixesToSkip : List Bytes) (iterA iterB : List Pair) : List (Pair × Pair) :=
  (turns iterA iterB).filter fun turn => isReported prefixesToSkip turn.1 turn.2

/-- The turns from a turn on: what it reports, then what the later turns report. -/
theorem reportedTurns_of_turns (prefixesToSkip : List Bytes) (iterA iterB restA restB : List Pair)
    (kvA kvB : Pair) (next : turns iterA iterB = (kvA, kvB) :: turns restA restB) :
    reportedTurns prefixesToSkip iterA iterB =
      (if isReported prefixesToSkip kvA kvB then [(kvA, kvB)] else []) ++
        reportedTurns prefixesToSkip restA restB := by
  rw [reportedTurns, next, List.filter_cons, reportedTurns]
  split_ifs <;> rfl

/-- A turn appends what it reports after what the turns before it reported. -/
theorem recordPairs_eq (prefixesToSkip : List Bytes) (kvA kvB : Pair) (diffs : List Pair × List Pair) :
    recordPairs prefixesToSkip kvA kvB diffs =
      (diffs.1 ++ (if isReported prefixesToSkip kvA kvB then [(kvA, kvB)] else []).map Prod.fst,
        diffs.2 ++ (if isReported prefixesToSkip kvA kvB then [(kvA, kvB)] else []).map Prod.snd) := by
  rw [recordPairs]
  split_ifs <;> simp

/-- The loop appends the pairs of the turns it reports, in order. -/
theorem diffLoop_eq (prefixesToSkip : List Bytes) (diffs : List Pair × List Pair) (iterA iterB : List Pair) :
    diffLoop prefixesToSkip diffs iterA iterB =
      (diffs.1 ++ (reportedTurns prefixesToSkip iterA iterB).map Prod.fst,
        diffs.2 ++ (reportedTurns prefixesToSkip iterA iterB).map Prod.snd) := by
  fun_induction diffLoop prefixesToSkip diffs iterA iterB with
  | case1 diffs => simp [reportedTurns, turns]
  | case2 diffs kvA iterA induction =>
      rw [induction, recordPairs_eq, reportedTurns_of_turns prefixesToSkip (kvA :: iterA) [] iterA [] kvA zeroPair rfl]
      simp
  | case3 diffs kvB iterB induction =>
      rw [induction, recordPairs_eq, reportedTurns_of_turns prefixesToSkip [] (kvB :: iterB) [] iterB zeroPair kvB rfl]
      simp
  | case4 diffs kvA iterA kvB iterB induction =>
      rw [induction, recordPairs_eq, reportedTurns_of_turns prefixesToSkip (kvA :: iterA) (kvB :: iterB) iterA iterB kvA kvB rfl]
      simp

/-- `Iterator(nil, nil)` visits every pair. -/
theorem iterator_nil_none (kvs : KVStore) : kvs.iterator [] none = kvs.pairs := by
  rw [KVStore.iterator, List.filter_eq_self]
  intro pair _
  simp [KVStore.inDomain, List.nil_le]

/-- On two stores with the same keys, the turns pair each key with itself. -/
theorem turns_of_same_keys : ∀ (iterA iterB : List Pair), iterA.map Prod.fst = iterB.map Prod.fst →
    turns iterA iterB = iterA.zip iterB
  | [], [], _ => rfl
  | [], _ :: _, same => by simp at same
  | _ :: _, [], same => by simp at same
  | kvA :: iterA, kvB :: iterB, same => by
      simp only [List.map_cons, List.cons.injEq] at same
      rw [turns, turns_of_same_keys iterA iterB same.2, List.zip_cons_cons]

/-- A turn on one key is reported when no skipped prefix starts the key and the values differ. -/
theorem isReported_of_same_key (prefixesToSkip : List Bytes) {kvA kvB : Pair} (same : kvA.1 = kvB.1) :
    isReported prefixesToSkip kvA kvB =
      ((!prefixesToSkip.any fun keyPrefix => keyPrefix.isPrefixOf kvA.1) && kvA.2 != kvB.2) := by
  rw [isReported, same]
  simp only [Bool.or_self, bne_self_eq_false, Bool.false_or]

theorem diffKVStores_pairs_by_position (a b : KVStore) (prefixesToSkip : List Bytes) :
    diffKVStores a b prefixesToSkip =
      ((reportedTurns prefixesToSkip a.pairs b.pairs).map Prod.fst,
        (reportedTurns prefixesToSkip a.pairs b.pairs).map Prod.snd) ∧
    (a.pairs.map Prod.fst = b.pairs.map Prod.fst →
      reportedTurns prefixesToSkip a.pairs b.pairs =
        (a.pairs.zip b.pairs).filter fun turn =>
          (!prefixesToSkip.any fun keyPrefix => keyPrefix.isPrefixOf turn.1.1) && turn.1.2 != turn.2.2) := by
  refine ⟨?_, fun same => ?_⟩
  · rw [diffKVStores, iterator_nil_none, iterator_nil_none, diffLoop_eq]
    simp
  · -- the keys of each turn agree, so only the values are compared
    rw [reportedTurns, turns_of_same_keys a.pairs b.pairs same]
    apply List.filter_congr
    intro turn member
    obtain ⟨kvA, kvB⟩ := turn
    have keys : kvA.1 = kvB.1 := by
      obtain ⟨i, found⟩ := List.mem_iff_getElem?.mp member
      obtain ⟨foundA, foundB⟩ := List.getElem?_zip_eq_some.mp found
      have keyA : (a.pairs.map Prod.fst)[i]? = some kvA.1 := by rw [List.getElem?_map, foundA]; rfl
      have keyB : (b.pairs.map Prod.fst)[i]? = some kvB.1 := by rw [List.getElem?_map, foundB]; rfl
      rw [same, keyB] at keyA
      exact (Option.some.inj keyA).symm
    exact isReported_of_same_key prefixesToSkip keys

/-- A key `[1]` with the value `[1]` in both stores, and a key `[0]` that only
the second holds: the first turn compares `[1]` with `[0]`, the second the
zero pair with `[1]`, and both are reported. -/
theorem diffKVStores_pairs_by_position_shifted :
    diffKVStores ⟨[([1], [1])], List.pairwise_singleton _ _⟩ ⟨[([0], [0]), ([1], [1])], by decide⟩ [] =
      ([([1], [1]), zeroPair], [([0], [0]), ([1], [1])]) := by
  rw [(diffKVStores_pairs_by_position ⟨[([1], [1])], List.pairwise_singleton _ _⟩
    ⟨[([0], [0]), ([1], [1])], by decide⟩ []).1]
  decide

end CoreSdk.Store
