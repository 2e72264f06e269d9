import Mathlib.Logic.Function.Basic
import Mathlib.Data.List.Basic
import Mathlib.Data.Nat.Init

/-!
# Dense packing of a sparse array

A partial map `p : Nat → Option β` over the indices below `n` can be stored as a
bitmap of its defined indices together with the list of its defined values in
index order, `dense p n`. The value at a defined index `i` then sits at position
`rank p i` of that list, the number of defined indices below `i`.

Writing a value at an index keeps the layout when the list is updated in place
(the index was defined) or when the value is inserted at the index's rank (it
was not). These are the two cases an implementation of the layout has to get
right.
-/

namespace Packing

set_option autoImplicit false

variable {β : Type}

/-- The defined values below `n`, in index order. -/
def dense (p : Nat → Option β) (n : Nat) : List β := (List.range n).filterMap p

/-- The number of defined indices below `i`. -/
def rank (p : Nat → Option β) (i : Nat) : Nat := (List.range i).countP (fun j => (p j).isSome)

theorem insertIdx_append_of_le (xs ys : List β) (k : Nat) (x : β) (inside : k ≤ xs.length) :
    (xs ++ ys).insertIdx k x = xs.insertIdx k x ++ ys := by
  induction xs generalizing k with
  | nil =>
      rw [List.length_nil, Nat.le_zero] at inside
      subst inside
      rfl
  | cons y xs induction =>
      cases k with
      | zero => rfl
      | succ k =>
          simp only [List.cons_append, List.insertIdx_succ_cons]
          rw [induction k (by simpa using inside)]

section Layout

variable (p : Nat → Option β)

theorem dense_succ (n : Nat) : dense p (n + 1) = dense p n ++ (p n).toList := by
  simp only [dense, List.range_succ, List.filterMap_append]
  cases value : p n <;> simp [value]

theorem rank_succ (i : Nat) : rank p (i + 1) = rank p i + if (p i).isSome then 1 else 0 := by
  simp only [rank, List.range_succ, List.countP_append, List.countP_singleton]

theorem length_dense (n : Nat) : (dense p n).length = rank p n := by
  induction n with
  | zero => rfl
  | succ n induction =>
      rw [dense_succ, rank_succ, List.length_append, induction]
      cases p n <;> simp

theorem dense_isPrefix_of_le {m n : Nat} (le : m ≤ n) : dense p m <+: dense p n := by
  induction n, le using Nat.le_induction with
  | base => exact List.prefix_refl _
  | succ n _ induction =>
      rw [dense_succ]
      exact induction.trans (List.prefix_append _ _)

theorem rank_mono {m n : Nat} (le : m ≤ n) : rank p m ≤ rank p n := by
  rw [← length_dense, ← length_dense]
  exact (dense_isPrefix_of_le p le).length_le

/-- A defined index below `n` has a smaller rank than `n` itself. -/
theorem rank_lt_of_isSome {i n : Nat} (below : i < n) (defined : (p i).isSome) :
    rank p i < rank p n := by
  have step := rank_succ p i
  rw [if_pos defined] at step
  have := rank_mono p (show i + 1 ≤ n from below)
  omega

/-- The value of a defined index is found at its rank. -/
theorem getElem?_dense_rank {i n : Nat} {v : β} (below : i < n) (defined : p i = some v) :
    (dense p n)[rank p i]? = some v := by
  obtain ⟨rest, grows⟩ := dense_isPrefix_of_le p (show i + 1 ≤ n from below)
  have shorter : rank p i < (dense p (i + 1)).length := by
    rw [length_dense, rank_succ, defined]
    simp
  rw [← grows, List.getElem?_append_left shorter, dense_succ, defined, ← length_dense]
  simp

end Layout

section Congruence

variable {p q : Nat → Option β}

theorem dense_congr {n : Nat} (agree : ∀ j < n, p j = q j) : dense p n = dense q n :=
  List.filterMap_congr (fun j member => agree j (List.mem_range.mp member))

end Congruence

section Update

variable (p : Nat → Option β) (i : Nat) (v : β)

/-- Below the written index nothing changes. -/
theorem dense_update_below : dense (Function.update p i (some v)) i = dense p i :=
  dense_congr (fun _ below => Function.update_of_ne (Nat.ne_of_lt below) _ _)

theorem isSome_update (j : Nat) :
    (Function.update p i (some v) j).isSome = ((p j).isSome || decide (j = i)) := by
  by_cases same : j = i
  · subst same
    simp
  · simp [same]

/-- Overwriting a defined index writes the dense list in place. -/
theorem dense_update_of_isSome {n : Nat} (below : i < n) (defined : (p i).isSome) :
    dense (Function.update p i (some v)) n = (dense p n).set (rank p i) v := by
  have above : i + 1 ≤ n := below
  clear below
  induction n, above using Nat.le_induction with
  | base =>
      obtain ⟨old, isOld⟩ := Option.isSome_iff_exists.mp defined
      rw [dense_succ, dense_succ, dense_update_below, Function.update_self, isOld,
        ← length_dense]
      simp
  | succ n le induction =>
      have inside : rank p i < (dense p n).length := by
        rw [length_dense]
        exact rank_lt_of_isSome p le defined
      rw [dense_succ, dense_succ, induction, Function.update_of_ne (by omega),
        List.set_append_left _ _ inside]

/-- Defining a new index inserts its value at its rank. -/
theorem dense_update_of_none {n : Nat} (below : i < n) (undefined : p i = none) :
    dense (Function.update p i (some v)) n = (dense p n).insertIdx (rank p i) v := by
  have above : i + 1 ≤ n := below
  clear below
  induction n, above using Nat.le_induction with
  | base =>
      rw [dense_succ, dense_succ, dense_update_below, Function.update_self, undefined,
        ← length_dense]
      simp
  | succ n le induction =>
      have inside : rank p i ≤ (dense p n).length := by
        rw [length_dense]
        exact rank_mono p (Nat.le_of_lt le)
      rw [dense_succ, dense_succ, induction, Function.update_of_ne (by omega),
        insertIdx_append_of_le _ _ _ _ inside]

end Update

end Packing
