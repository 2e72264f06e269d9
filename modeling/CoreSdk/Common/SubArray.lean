import CoreSdk.Go.Runtime
import Mathlib.Tactic.Ring

/-!
# Splitting a slice into segments

A transcription of `SubArray` of `common/commom.go`, over the one `SplitAble`
that the client splits, `Msgs`: `Len` is the length of the slice and
`Sub(begin, end)` the slice expression `m[begin:end]`.

For a positive width `SubArray` returns the segments of that width in order,
the last one possibly shorter, or the whole slice as its only segment when it
is no longer than the width: `subArray_eq` gives the segments in closed form,
`segmentAt width xs k` for `k` below `segmentCount`.
-/

namespace CoreSdk.Common

open Go

set_option autoImplicit false

variable {α : Type}

/-- `SubArray`. -/
def subArray (subLen : Int) (array : List α) : Result (List (List α)) := do
  let maxLen : Int := array.length
  if maxLen ≤ subLen then
    return [array]
  let batch ← quot maxLen subLen
  -- the division has ruled out `subLen = 0`, so the `%` cannot panic
  let batch := if maxLen.tmod subLen > 0 then batch + 1 else batch
  (List.range batch.toNat).mapM fun (k : Nat) =>
    let i : Int := k + 1
    if i ≠ batch then slice array ((i - 1) * subLen) (i * subLen)
    else slice array ((i - 1) * subLen) array.length

/-- The `k`-th segment of width `width`. -/
def segmentAt (width : Nat) (xs : List α) (k : Nat) : List α := (xs.drop (k * width)).take width

/-- The number of segments: `⌈n / width⌉`, and one segment for an empty slice. -/
def segmentCount (width n : Nat) : Nat := max 1 ((n + width - 1) / width)

/-- The first `j` segments, joined, are the first `j * width` elements. -/
theorem flatten_segments (width : Nat) (xs : List α) (j : Nat) :
    ((List.range j).map (segmentAt width xs)).flatten = xs.take (j * width) := by
  induction j with
  | zero => simp
  | succ j induction =>
      rw [List.range_succ, List.map_append, List.flatten_append, induction, Nat.succ_mul,
        List.take_add]
      simp [segmentAt]

/-- `⌈n / width⌉` as `SubArray` computes it: the quotient, one more if there is a remainder. -/
theorem ceil_div_eq (n width : Nat) (positive : 0 < width) :
    (n + width - 1) / width = n / width + if n % width > 0 then 1 else 0 := by
  have split := Nat.div_add_mod n width
  have rest := Nat.mod_lt n positive
  have shift : n + width - 1 = (n % width + width - 1) + width * (n / width) := by omega
  rw [shift, Nat.add_mul_div_left _ _ positive]
  split_ifs with remainder
  · rw [Nat.div_eq_of_lt_le (k := 1) (by omega) (by omega)]
    omega
  · rw [Nat.div_eq_of_lt (by omega)]
    omega

theorem le_segmentCount_mul (width n : Nat) (positive : 0 < width) :
    n ≤ segmentCount width n * width := by
  have above := Nat.lt_div_mul_add (a := n + width - 1) positive
  have atLeast : (n + width - 1) / width * width ≤ segmentCount width n * width :=
    Nat.mul_le_mul_right width (le_max_right _ _)
  omega

/-- Every segment of a non-empty slice starts inside it. -/
theorem segment_start_lt (width n : Nat) (positive : 0 < width) (nonempty : 0 < n) (k : Nat)
    (inside : k < segmentCount width n) : k * width < n := by
  have count : segmentCount width n = (n + width - 1) / width := by
    have : 1 ≤ (n + width - 1) / width := (Nat.le_div_iff_mul_le positive).mpr (by omega)
    simp [segmentCount, this]
  have below := Nat.div_mul_le_self (n + width - 1) width
  have step : (k + 1) * width ≤ (n + width - 1) / width * width :=
    Nat.mul_le_mul_right width (by omega)
  rw [Nat.add_mul] at step
  omega

theorem subArray_of_le (width : Nat) (xs : List α) (short : xs.length ≤ width) :
    subArray width xs = .ok [xs] := by
  simp [subArray, short]

/-- The segments of a longer slice, one slice expression each. -/
theorem slice_segment (width : Nat) (positive : 0 < width) (xs : List α)
    (longer : width < xs.length) (k : Nat) (inside : k < segmentCount width xs.length) :
    (if ((k : Int) + 1) ≠ segmentCount width xs.length then
        slice xs (((k : Int) + 1 - 1) * width) (((k : Int) + 1) * width)
      else slice xs (((k : Int) + 1 - 1) * width) xs.length) = .ok (segmentAt width xs k) := by
  have nonempty : 0 < xs.length := by omega
  have start := segment_start_lt width xs.length positive nonempty k inside
  have low : ((k : Int) + 1 - 1) * width = ((k * width : Nat) : Int) := by push_cast; ring
  rw [low]
  split_ifs with last
  · have notLast : k + 1 < segmentCount width xs.length := by omega
    have stop := segment_start_lt width xs.length positive nonempty (k + 1) notLast
    have high : ((k : Int) + 1) * width = (((k + 1) * width : Nat) : Int) := by push_cast; ring
    rw [high, slice_natCast _ _ _ (by rw [Nat.add_mul]; omega) (by omega)]
    simp [segmentAt, Nat.add_mul]
  · have isLast : k + 1 = segmentCount width xs.length := by omega
    have cover := le_segmentCount_mul width xs.length positive
    rw [slice_natCast _ _ _ (by omega) le_rfl, segmentAt, List.take_of_length_le (by simp),
      List.take_of_length_le (by rw [List.length_drop, ← isLast, Nat.add_mul] at *; omega)]

theorem subArray_eq (width : Nat) (positive : 0 < width) (xs : List α) :
    subArray width xs = .ok ((List.range (segmentCount width xs.length)).map (segmentAt width xs)) := by
  by_cases short : xs.length ≤ width
  · -- one segment, the whole slice
    have one : segmentCount width xs.length = 1 := by
      have : (xs.length + width - 1) / width < 2 :=
        (Nat.div_lt_iff_lt_mul positive).mpr (by omega)
      simp only [segmentCount]
      omega
    rw [subArray_of_le width xs short, one]
    simp [segmentAt, List.take_of_length_le short]
  · have longer : width < xs.length := by omega
    have count : segmentCount width xs.length = xs.length / width +
        if xs.length % width > 0 then 1 else 0 := by
      have : 1 ≤ (xs.length + width - 1) / width := (Nat.le_div_iff_mul_le positive).mpr (by omega)
      rw [segmentCount, max_eq_right this, ceil_div_eq _ _ positive]
    have batch : (if (xs.length : Int).tmod width > 0 then (xs.length : Int).tdiv width + 1
        else (xs.length : Int).tdiv width) = (segmentCount width xs.length : Int) := by
      have quotient : (xs.length : Int).tdiv width = ((xs.length / width : Nat) : Int) := rfl
      have remainder : (xs.length : Int).tmod width = ((xs.length % width : Nat) : Int) := rfl
      rw [count, quotient, remainder]
      split_ifs <;> omega
    simp only [subArray, if_neg (show ¬((xs.length : Int) ≤ width) by omega), quot,
      if_neg (show ¬((width : Int) = 0) by omega), ok_bind]
    rw [batch, Int.toNat_natCast]
    exact mapM_eq_ok_map _ _ _ (fun k member =>
      slice_segment width positive xs longer k (List.mem_range.mp member))

theorem length_segmentAt (width : Nat) (xs : List α) (k : Nat) :
    (segmentAt width xs k).length = min width (xs.length - k * width) := by
  rw [segmentAt, List.length_take, List.length_drop]

theorem subArray_partitions (subLen : Int) (positive : 1 ≤ subLen) (array : List α) :
    ∃ segments, subArray subLen array = .ok segments ∧ segments.flatten = array ∧
      segments.length = max 1 ((array.length + subLen.toNat - 1) / subLen.toNat) ∧
      (∀ k segment, k + 1 < segments.length → segments[k]? = some segment → segment.length = subLen.toNat) ∧
      (array.length ≤ subLen.toNat → segments = [array]) ∧
      (subLen.toNat < array.length → ∀ last, segments.getLast? = some last →
        1 ≤ last.length ∧ last.length ≤ subLen.toNat) := by
  set width := subLen.toNat with widthOf
  have widthPos : 0 < width := by omega
  have cast : subLen = (width : Int) := by omega
  have count : ((List.range (segmentCount width array.length)).map (segmentAt width array)).length =
      segmentCount width array.length := by simp
  refine ⟨_, by rw [cast]; exact subArray_eq width widthPos array, ?_, count, ?_, ?_, ?_⟩
  · -- the segments cover the whole slice
    rw [flatten_segments]
    exact List.take_of_length_le (le_segmentCount_mul width array.length widthPos)
  · intro k segment notLast found
    rw [count] at notLast
    rw [List.getElem?_map, List.getElem?_range (by omega), Option.map_some, Option.some.injEq] at found
    have nonempty : 0 < array.length := by
      by_contra empty
      have one : segmentCount width array.length = 1 := by
        rw [segmentCount, show array.length = 0 by omega, Nat.zero_add, Nat.div_eq_of_lt (by omega)]
        rfl
      omega
    have next := segment_start_lt width array.length widthPos nonempty (k + 1) notLast
    rw [← found, length_segmentAt, Nat.add_mul, Nat.one_mul] at *
    omega
  · intro short
    have one : segmentCount width array.length = 1 := by
      have : (array.length + width - 1) / width < 2 := (Nat.div_lt_iff_lt_mul widthPos).mpr (by omega)
      simp only [segmentCount]
      omega
    rw [one]
    simp [segmentAt, List.take_of_length_le short]
  · intro longer last found
    have nonempty : 0 < array.length := by omega
    have atLeastOne : 1 ≤ segmentCount width array.length := le_max_left _ _
    rw [List.getLast?_eq_getElem?, count, List.getElem?_map, List.getElem?_range (by omega), Option.map_some,
      Option.some.injEq] at found
    have start := segment_start_lt width array.length widthPos nonempty (segmentCount width array.length - 1)
      (by omega)
    rw [← found, length_segmentAt]
    omega

/-- Ten messages in segments of four: three segments, which join to the ten. -/
theorem subArray_partitions_ten :
    ∃ segments, subArray 4 (List.range 10) = .ok segments ∧ segments.flatten = List.range 10 ∧
      segments.length = 3 := by
  obtain ⟨segments, split, joined, count, -⟩ := subArray_partitions 4 (by decide) (List.range 10)
  exact ⟨segments, split, joined, by rw [count]; rfl⟩

end CoreSdk.Common
