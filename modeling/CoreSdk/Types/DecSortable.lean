import CoreSdk.Types.DecEncoding
import CoreSdk.Types.DecArith
import CoreSdk.Data.DigitOrder

/-!
# Sortable decimal keys

`SortableDecBytes` (`types/dec.go`) writes a decimal as text meant to sort as
the number: the output of `String`, padded with zeros on the left to 37
characters, with the sign moved in front of the padding, and `max` and `--`
for the two ends of the range `ValidSortableDec` admits.

Inside the range, the padded text of the absolute value is 18 whole digits, the
point and 18 fraction digits, and such texts sort as their values. So
non-negative decimals sort as numbers and negative ones before them. Two
negative decimals share the sign and then compare by their absolute values,
so the larger number gets the smaller key.
-/

namespace CoreSdk.Types.Dec

open Go Go.Big DigitOrder

set_option autoImplicit false

/-- `OneDec`. -/
def oneDec : Dec := ⟨10 ^ precision⟩

/-- `SmallestDec`. -/
def smallestDec : Dec := ⟨1⟩

/-- `MaxSortableDec`, as the value of `OneDec().Quo(SmallestDec())`
(`quo_oneDec_smallestDec`). -/
def maxSortableDec : Dec := ⟨10 ^ 36⟩

/-- `Dec.Abs`. -/
def abs (d : Dec) : Dec := ⟨|d.i|⟩

/-- `ValidSortableDec`. -/
def validSortableDec (dec : Dec) : Bool := decide ((abs dec).i ≤ maxSortableDec.i)

/-- `fmt.Sprintf("%0*s", width, s)`: zeros on the left up to `width` characters. -/
def padZeros (width : Nat) (s : String) : String :=
  String.ofList (List.replicate (width - s.length) '0') ++ s

/-- `SortableDecBytes`, the bytes as the ASCII text they spell. -/
def sortableDecBytes (dec : Dec) : Result String :=
  if !validSortableDec dec then panicWith "dec must be within bounds"
  -- "max" comes after all numbers in ASCIIbetical order
  else if dec = maxSortableDec then .ok "max"
  -- "--" comes before all numbers
  else if dec = neg maxSortableDec then .ok "--"
  -- the sign goes in front of the padding
  else if isNegative dec then .ok ("-" ++ padZeros (precision * 2 + 1) (string (abs dec)))
  else .ok (padZeros (precision * 2 + 1) (string dec))

theorem quo_oneDec_smallestDec : quo oneDec smallestDec = .ok maxSortableDec := by
  have fits : bitLen (chopPrecisionAndRound ((oneDec.i * 10 ^ precision * 10 ^ precision).tdiv smallestDec.i)) ≤
      255 + decimalPrecisionBits := by
    have small : bitLen (10 ^ 36) ≤ 120 := (bitLen_le_iff _ 120).mpr (by decide)
    exact le_trans small (by decide)
  rw [quo, quoWith_of_fits _ _ _ (by decide) fits]
  decide

/-- What the padding writes for a number below `10^36`: its 36 digits with the
point after the eighteenth. -/
def sortableDigits (n : Nat) : List Char :=
  (fixedDigits 36 n).take 18 ++ '.' :: (fixedDigits 36 n).drop 18

theorem toList_padZeros (width : Nat) (s : String) :
    (padZeros width s).toList = List.replicate (width - s.length) '0' ++ s.toList := by
  rw [padZeros, String.toList_append, String.toList_ofList]

/-- Padding `String`'s digits to 37 characters fills the whole part with zeros
up to 18 digits. -/
theorem padded_pointDigits (ds : List Char) (fits : ds.length ≤ 36) :
    List.replicate (37 - (pointDigits ds).length) '0' ++ pointDigits ds =
      (List.replicate (36 - ds.length) '0' ++ ds).take 18 ++
        '.' :: (List.replicate (36 - ds.length) '0' ++ ds).drop 18 := by
  unfold pointDigits
  dsimp only
  by_cases short : ds.length ≤ precision
  · -- a pure fraction: the padding and the `0` before the point are the whole part
    have width : (['0', '.'] ++ List.replicate (precision - ds.length) '0' ++ ds).length = 20 := by
      simp only [precision] at short ⊢
      simp
      omega
    have split : List.replicate (36 - ds.length) '0' ++ ds =
        List.replicate 18 '0' ++ (List.replicate (18 - ds.length) '0' ++ ds) := by
      rw [← List.append_assoc, ← List.replicate_add]
      congr 2
      simp only [precision] at short
      omega
    rw [if_pos short, width, split, List.take_left' (List.length_replicate ..),
      List.drop_left' (List.length_replicate ..), show (18 : Nat) = 17 + 1 by rfl, List.replicate_succ']
    simp [precision]
  · have long : 18 < ds.length := by simp only [precision] at short; omega
    have width : (ds.take (ds.length - precision) ++ ['.'] ++ ds.drop (ds.length - precision)).length =
        ds.length + 1 := by
      simp
      omega
    have split : List.replicate (36 - ds.length) '0' ++ ds =
        (List.replicate (36 - ds.length) '0' ++ ds.take (ds.length - 18)) ++ ds.drop (ds.length - 18) := by
      rw [List.append_assoc, List.take_append_drop]
    rw [if_neg short, width, split, List.take_left' (by simp; omega), List.drop_left' (by simp; omega),
      show 37 - (ds.length + 1) = 36 - ds.length by omega]
    simp [precision]

theorem padZeros_string_of_nonneg (d : Dec) (nonneg : 0 ≤ d.i) (below : d.i < maxSortableDec.i) :
    (padZeros (precision * 2 + 1) (string d)).toList = sortableDigits d.i.natAbs := by
  have small : d.i.natAbs < 10 ^ 36 := by
    simp only [maxSortableDec] at below
    omega
  have digits : (string d).toList = pointDigits (Nat.toDigits 10 d.i.natAbs) := by
    rw [string_eq, if_neg (by omega), String.toList_append, String.toList_ofList]
    simp
  rw [toList_padZeros, ← String.length_toList, digits, show precision * 2 + 1 = 37 from rfl,
    padded_pointDigits _ (length_toDigits_le (by decide) small)]
  rfl

theorem validSortableDec_iff (d : Dec) :
    validSortableDec d = true ↔ -maxSortableDec.i ≤ d.i ∧ d.i ≤ maxSortableDec.i := by
  rw [validSortableDec, decide_eq_true_iff]
  exact abs_le

theorem sortableDecBytes_of_nonneg (d : Dec) (nonneg : 0 ≤ d.i) (below : d.i < maxSortableDec.i) :
    sortableDecBytes d = .ok (String.ofList (sortableDigits d.i.natAbs)) := by
  have valid := (validSortableDec_iff d).mpr ⟨by simp only [maxSortableDec]; omega, below.le⟩
  have notMax : d ≠ maxSortableDec := fun same => by
    rw [same] at below
    exact lt_irrefl _ below
  have notMin : d ≠ neg maxSortableDec := fun same => by
    have value := congrArg Dec.i same
    simp only [neg, maxSortableDec] at value
    omega
  unfold sortableDecBytes
  rw [if_neg (by simp [valid]), if_neg notMax, if_neg notMin, if_neg (by simp [isNegative]; omega)]
  apply congrArg Except.ok
  rw [← String.toList_inj, String.toList_ofList]
  exact padZeros_string_of_nonneg d nonneg below

theorem sortableDecBytes_of_neg (d : Dec) (above : -maxSortableDec.i < d.i) (negative : d.i < 0) :
    sortableDecBytes d = .ok (String.ofList ('-' :: sortableDigits d.i.natAbs)) := by
  have valid := (validSortableDec_iff d).mpr ⟨above.le, by simp only [maxSortableDec]; omega⟩
  have notMax : d ≠ maxSortableDec := fun same => by
    have value := congrArg Dec.i same
    simp only [maxSortableDec] at value
    omega
  have notMin : d ≠ neg maxSortableDec := fun same => by
    rw [same] at above
    exact lt_irrefl _ above
  -- the absolute value is padded as a non-negative one
  have positive : |d.i| = -d.i := abs_of_neg negative
  have padded := padZeros_string_of_nonneg (abs d) (abs_nonneg d.i)
    (by simp only [abs, maxSortableDec, positive] at above ⊢; omega)
  have sameDigits : (abs d).i.natAbs = d.i.natAbs := Int.natAbs_abs d.i
  unfold sortableDecBytes
  rw [if_neg (by simp [valid]), if_neg notMax, if_neg notMin, if_pos (by simp [isNegative]; omega)]
  apply congrArg Except.ok
  rw [← String.toList_inj, String.toList_append, padded, sameDigits, String.toList_ofList, String.toList_ofList,
    List.singleton_append]

/-- The keys of numbers below `10^36` sort as the numbers. -/
theorem sortableDigits_lt_iff {m n : Nat} (smallM : m < 10 ^ 36) (smallN : n < 10 ^ 36) :
    sortableDigits m < sortableDigits n ↔ m < n := by
  have lengths : ((fixedDigits 36 m).take 18).length = ((fixedDigits 36 n).take 18).length := by
    simp [length_fixedDigits (by decide : 0 < 36) smallM, length_fixedDigits (by decide : 0 < 36) smallN]
  rw [sortableDigits, sortableDigits, append_cons_lt_iff _ _ _ _ _ lengths, List.take_append_drop,
    List.take_append_drop, fixedDigits_lt_iff (by decide) smallM smallN]

/-- Two negative decimals inside the sortable range: the larger number gets the
smaller key. -/
theorem sortableDecBytes_reverses_negatives (a b : Dec) (lower : -maxSortableDec.i < a.i) (below : a.i < b.i)
    (negative : b.i < 0) :
    ∃ bytesA bytesB, sortableDecBytes a = .ok bytesA ∧ sortableDecBytes b = .ok bytesB ∧ bytesB < bytesA := by
  refine ⟨_, _, sortableDecBytes_of_neg a lower (by omega), sortableDecBytes_of_neg b (by omega) negative, ?_⟩
  have smallA : a.i.natAbs < 10 ^ 36 := by simp only [maxSortableDec] at lower; omega
  have smallB : b.i.natAbs < 10 ^ 36 := by simp only [maxSortableDec] at lower; omega
  rw [String.lt_iff, String.toList_ofList, String.toList_ofList, List.cons_lt_cons_self,
    sortableDigits_lt_iff smallB smallA]
  omega

/-- `-2` and `-1`: the key of `-1` sorts first. -/
theorem sortableDecBytes_reverses_negatives_two_one :
    ∃ bytesA bytesB, sortableDecBytes ⟨-2 * 10 ^ 18⟩ = .ok bytesA ∧ sortableDecBytes ⟨-1 * 10 ^ 18⟩ = .ok bytesB ∧
      bytesB < bytesA :=
  sortableDecBytes_reverses_negatives ⟨-2 * 10 ^ 18⟩ ⟨-1 * 10 ^ 18⟩ (by decide) (by decide) (by decide)

theorem sortableDecBytes_max : sortableDecBytes maxSortableDec = .ok "max" := by
  unfold sortableDecBytes
  rw [if_neg (by decide), if_pos rfl]

theorem sortableDecBytes_min : sortableDecBytes (neg maxSortableDec) = .ok "--" := by
  unfold sortableDecBytes
  rw [if_neg (by decide), if_neg (by decide), if_pos rfl]

theorem sortableDigits_head {n : Nat} (small : n < 10 ^ 36) :
    ∃ c rest, sortableDigits n = c :: rest ∧ c.isDigit = true := by
  obtain ⟨c, tail, split⟩ := List.exists_cons_of_length_eq_add_one (length_fixedDigits (by decide) small)
  exact ⟨c, _, by rw [sortableDigits, split]; rfl, isDigit_of_mem_fixedDigits (split ▸ List.mem_cons_self)⟩

/-- The key of a non-negative value in range: `max`, or its digits. -/
theorem sortableDecBytes_nonneg_cases (d : Dec) (nonneg : 0 ≤ d.i) (upper : d.i ≤ maxSortableDec.i) :
    sortableDecBytes d = .ok "max" ∨
      d.i < maxSortableDec.i ∧ sortableDecBytes d = .ok (String.ofList (sortableDigits d.i.natAbs)) := by
  rcases lt_or_eq_of_le upper with below | top
  · exact Or.inr ⟨below, sortableDecBytes_of_nonneg d nonneg below⟩
  · have same : d = maxSortableDec := by
      cases d
      simp only at top
      rw [top]
    rw [same]
    exact Or.inl sortableDecBytes_max

theorem key_lt_max {c : Char} (digit : c.isDigit = true) (rest : List Char) : String.ofList (c :: rest) < "max" := by
  have code := (isDigit_iff_toNat.mp digit).2
  rw [String.lt_iff, String.toList_ofList, show "max".toList = ['m', 'a', 'x'] by decide, List.cons_lt_cons_iff,
    char_lt_iff]
  exact Or.inl (by rw [show 'm'.toNat = 109 from rfl]; omega)

theorem minus_lt_digit {c : Char} (digit : c.isDigit = true) : '-' < c := by
  have code := (isDigit_iff_toNat.mp digit).1
  rw [char_lt_iff, show '-'.toNat = 45 from rfl]
  omega

/-- A key that starts with a minus sorts before the key of every non-negative value. -/
theorem minus_lt_nonneg_key (b : Dec) (nonneg : 0 ≤ b.i) (upper : b.i ≤ maxSortableDec.i) :
    ∃ bytesB, sortableDecBytes b = .ok bytesB ∧ ∀ xs, String.ofList ('-' :: xs) < bytesB := by
  rcases sortableDecBytes_nonneg_cases b nonneg upper with top | ⟨below, digits⟩
  · refine ⟨_, top, fun xs => ?_⟩
    rw [String.lt_iff, String.toList_ofList, show "max".toList = ['m', 'a', 'x'] by decide, List.cons_lt_cons_iff]
    exact Or.inl (by decide)
  · obtain ⟨c, rest, split, digit⟩ := sortableDigits_head (n := b.i.natAbs)
      (by simp only [maxSortableDec] at below; omega)
    refine ⟨_, digits, fun xs => ?_⟩
    rw [String.lt_iff, String.toList_ofList, String.toList_ofList, split, List.cons_lt_cons_iff]
    exact Or.inl (minus_lt_digit digit)

/-- Outside pairs of negative values, keys sort as the numbers: for valid `a < b`
the key of `a` is below the key of `b` when `b` is not negative, or when `a` is
the least sortable value. -/
theorem sortableDecBytes_lt_of_lt (a b : Dec) (validA : validSortableDec a = true)
    (validB : validSortableDec b = true) (less : a.i < b.i) (notBothNegative : 0 ≤ b.i ∨ a = neg maxSortableDec) :
    ∃ bytesA bytesB, sortableDecBytes a = .ok bytesA ∧ sortableDecBytes b = .ok bytesB ∧ bytesA < bytesB := by
  rw [validSortableDec_iff] at validA validB
  by_cases least : a = neg maxSortableDec
  · -- "--" is below a minus and a digit, below "max" and below every digit
    rw [least] at less ⊢
    simp only [neg] at less
    rcases lt_or_ge b.i 0 with negative | nonneg
    · obtain ⟨c, rest, split, digit⟩ := sortableDigits_head (n := b.i.natAbs)
        (by simp only [maxSortableDec] at less; omega)
      refine ⟨_, _, sortableDecBytes_min, sortableDecBytes_of_neg b less negative, ?_⟩
      rw [String.lt_iff, String.toList_ofList, split, String.toList_ofList, List.cons_lt_cons_self,
        List.cons_lt_cons_iff]
      exact Or.inl (minus_lt_digit digit)
    · obtain ⟨bytesB, key, below⟩ := minus_lt_nonneg_key b nonneg validB.2
      exact ⟨_, bytesB, sortableDecBytes_min, key, below ['-']⟩
  · have nonneg := notBothNegative.resolve_right least
    rcases lt_or_ge a.i 0 with negative | nonnegA
    · -- a minus sorts before every non-negative key
      have above : -maxSortableDec.i < a.i := lt_of_le_of_ne validA.1 fun same => least (by
        cases a
        simp only at same
        simp [neg, ← same])
      obtain ⟨bytesB, key, below⟩ := minus_lt_nonneg_key b nonneg validB.2
      exact ⟨_, bytesB, sortableDecBytes_of_neg a above negative, key, below _⟩
    · have belowA : a.i < maxSortableDec.i := lt_of_lt_of_le less validB.2
      have smallA : a.i.natAbs < 10 ^ 36 := by simp only [maxSortableDec] at belowA; omega
      rcases sortableDecBytes_nonneg_cases b nonneg validB.2 with top | ⟨belowB, digits⟩
      · obtain ⟨c, rest, split, digit⟩ := sortableDigits_head smallA
        refine ⟨_, _, sortableDecBytes_of_nonneg a nonnegA belowA, top, ?_⟩
        rw [split]
        exact key_lt_max digit rest
      · have smallB : b.i.natAbs < 10 ^ 36 := by simp only [maxSortableDec] at belowB; omega
        refine ⟨_, _, sortableDecBytes_of_nonneg a nonnegA belowA, digits, ?_⟩
        rw [String.lt_iff, String.toList_ofList, String.toList_ofList, sortableDigits_lt_iff smallA smallB]
        omega

/-- `-1` and `1`: the negative key sorts first. -/
theorem sortableDecBytes_lt_of_lt_minus_one_one :
    ∃ bytesA bytesB, sortableDecBytes ⟨-1 * 10 ^ 18⟩ = .ok bytesA ∧ sortableDecBytes ⟨10 ^ 18⟩ = .ok bytesB ∧
      bytesA < bytesB :=
  sortableDecBytes_lt_of_lt ⟨-1 * 10 ^ 18⟩ ⟨10 ^ 18⟩ (by decide) (by decide) (by decide) (Or.inl (by decide))

end CoreSdk.Types.Dec
