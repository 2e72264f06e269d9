import CoreSdk.Go.Big

/-!
# Lexicographic order of fixed-width digit strings

Two runs of decimal digits of one length compare lexicographically as the
numbers they spell, and a separator inserted at the same place in both keeps
that order. A number below `10^w`, padded with zeros on the left to `w` digits,
spells itself. Together these say when a text key sorts as its number.
-/

namespace DigitOrder

open Go.Big

set_option autoImplicit false

/-- The decimal digits of `n`, with zeros on the left up to `width`. -/
def fixedDigits (width n : Nat) : List Char :=
  List.replicate (width - (Nat.toDigits 10 n).length) '0' ++ Nat.toDigits 10 n

theorem length_toDigits_le {width n : Nat} (positive : 0 < width) (small : n < 10 ^ width) :
    (Nat.toDigits 10 n).length ≤ width :=
  (Nat.length_toDigits_le_iff (by decide) positive).mpr small

theorem length_fixedDigits {width n : Nat} (positive : 0 < width) (small : n < 10 ^ width) :
    (fixedDigits width n).length = width := by
  have fits := length_toDigits_le positive small
  rw [fixedDigits, List.length_append, List.length_replicate]
  omega

theorem digitsValue_fixedDigits (width n : Nat) : digitsValue (fixedDigits width n) = n := by
  rw [fixedDigits, digitsValue_zeros_append, digitsValue_toDigits]

theorem isDigit_of_mem_fixedDigits {width n : Nat} {c : Char} (member : c ∈ fixedDigits width n) :
    c.isDigit = true := by
  rcases List.mem_append.mp member with inZeros | inDigits
  · rw [List.eq_of_mem_replicate inZeros]
    rfl
  · exact isDigit_of_mem_toDigits inDigits

/-- A separator at the same place in two lists leaves their order as it was. -/
theorem append_cons_lt_iff {α : Type} [LT α] [Std.Irrefl (· < · : α → α → Prop)] (u u' v v' : List α) (c : α)
    (same : u.length = u'.length) : u ++ c :: v < u' ++ c :: v' ↔ u ++ v < u' ++ v' := by
  induction u generalizing u' with
  | nil =>
    rw [List.eq_nil_of_length_eq_zero same.symm]
    exact List.cons_lt_cons_self
  | cons a u induction =>
    obtain ⟨b, u', rfl⟩ := List.exists_cons_of_length_eq_add_one same.symm
    simp only [List.cons_append, List.cons_lt_cons_iff, induction u' (by simpa using same)]

theorem digitsValue_append (xs ys : List Char) :
    digitsValue (xs ++ ys) = digitsValue xs * 10 ^ ys.length + digitsValue ys := by
  induction ys using List.reverseRecOn with
  | nil => simp [digitsValue]
  | append_singleton ys c induction =>
    rw [← List.append_assoc, digitsValue_append_singleton, induction, digitsValue_append_singleton,
      List.length_append, List.length_singleton, Nat.pow_succ]
    ring

/-- The value of a digit run is below ten to its length. -/
theorem digitsValue_lt {ds : List Char} (allDigits : ∀ c ∈ ds, c.isDigit = true) :
    digitsValue ds < 10 ^ ds.length := by
  induction ds using List.reverseRecOn with
  | nil => simp [digitsValue]
  | append_singleton ds c induction =>
    have below := induction fun d member => allDigits d (List.mem_append_left _ member)
    have digit := (isDigit_iff_toNat.mp (allDigits c (by simp))).2
    rw [digitsValue_append_singleton, List.length_append, List.length_singleton, Nat.pow_succ]
    have zero : '0'.toNat = 48 := rfl
    omega

theorem char_lt_iff {c d : Char} : c < d ↔ c.toNat < d.toNat := by
  rw [Char.lt_def, UInt32.lt_iff_toNat_lt]
  rfl

theorem digitsValue_cons (c : Char) (ds : List Char) :
    digitsValue (c :: ds) = (c.toNat - 48) * 10 ^ ds.length + digitsValue ds := by
  have single : digitsValue [c] = c.toNat - 48 := by simp [digitsValue]
  rw [← List.singleton_append, digitsValue_append, single]

/-- Numbers written with a leading digit over a tail below `p` compare by the
leading digit first. -/
theorem mul_add_lt_mul_add_iff {a b p x y : Nat} (smallX : x < p) (smallY : y < p) :
    a * p + x < b * p + y ↔ a < b ∨ (a = b ∧ x < y) := by
  constructor
  · intro less
    rcases Nat.lt_trichotomy a b with below | rfl | above
    · exact Or.inl below
    · exact Or.inr ⟨rfl, by omega⟩
    · have step : (b + 1) * p ≤ a * p := Nat.mul_le_mul_right p above
      rw [Nat.succ_mul] at step
      omega
  · rintro (below | ⟨rfl, less⟩)
    · have step : (a + 1) * p ≤ b * p := Nat.mul_le_mul_right p below
      rw [Nat.succ_mul] at step
      omega
    · omega

/-- Digit runs of one length compare lexicographically as their values. -/
theorem lt_iff_digitsValue_lt (xs ys : List Char) (digitsX : ∀ c ∈ xs, c.isDigit = true)
    (digitsY : ∀ c ∈ ys, c.isDigit = true) (same : xs.length = ys.length) :
    xs < ys ↔ digitsValue xs < digitsValue ys := by
  induction xs generalizing ys with
  | nil =>
    rw [List.eq_nil_of_length_eq_zero same.symm]
    simp [digitsValue]
  | cons c xs induction =>
    obtain ⟨d, ys, rfl⟩ := List.exists_cons_of_length_eq_add_one same.symm
    have sameLength : xs.length = ys.length := by simpa using same
    have rest := induction ys (fun e member => digitsX e (List.mem_cons_of_mem c member))
      (fun e member => digitsY e (List.mem_cons_of_mem d member)) sameLength
    have lowX := digitsValue_lt fun e member => digitsX e (List.mem_cons_of_mem c member)
    have lowY := digitsValue_lt fun e member => digitsY e (List.mem_cons_of_mem d member)
    have digitC := isDigit_iff_toNat.mp (digitsX c (by simp))
    have digitD := isDigit_iff_toNat.mp (digitsY d (by simp))
    rw [← sameLength] at lowY
    rw [digitsValue_cons, digitsValue_cons, ← sameLength, mul_add_lt_mul_add_iff lowX lowY,
      List.cons_lt_cons_iff, char_lt_iff, rest]
    -- the digits' codes and their values differ by the same 48
    have codes : c = d ↔ c.toNat - 48 = d.toNat - 48 := by
      rw [← Char.toNat_inj]
      omega
    rw [codes]
    omega

/-- Fixed-width texts of numbers below `10^width` compare as the numbers. -/
theorem fixedDigits_lt_iff {width m n : Nat} (positive : 0 < width) (smallM : m < 10 ^ width)
    (smallN : n < 10 ^ width) : fixedDigits width m < fixedDigits width n ↔ m < n := by
  rw [lt_iff_digitsValue_lt _ _ (fun _ => isDigit_of_mem_fixedDigits) (fun _ => isDigit_of_mem_fixedDigits)
    (by rw [length_fixedDigits positive smallM, length_fixedDigits positive smallN]),
    digitsValue_fixedDigits, digitsValue_fixedDigits]

end DigitOrder
