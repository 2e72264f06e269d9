import CoreSdk.Crypto.CompactBitArray
import CoreSdk.Go.Binary

/-!
# The two codecs of compact bit arrays

`CompactMarshal` writes the bit count as a uvarint and then `Elems`;
`CompactUnmarshal` reads them back, slicing the buffer at the length `Uvarint`
returns and checking the rest against `int(size+7)/8`. `MarshalJSON` writes one
`x` or `_` a bit between quotes; `UnmarshalJSON` matches `\A"([_x]*)"\z`,
builds a fresh array with `NewCompactBitArray` and copies it through the
receiver.

Both round trips hold for a well-sized array with at least one bit
(`compactUnmarshal_compactMarshal`, `unmarshalJSON_marshalJSON_sameBits`). Outside
them, `CompactUnmarshal` slices at the negative length of an overflowing
varint and panics, and accepts the seven largest sizes, where `size+7` wraps,
with no bytes and a negative `Count` (`compactUnmarshal_not_total`). An array
with no bits is written as `""`, for which `NewCompactBitArray(0)` is nil and
the copy through it panics (`marshalJSON_empty_unmarshalJSON_panics`).
-/

namespace CoreSdk.Crypto

open Go

set_option autoImplicit false

namespace CompactBitArray

/-- `[]byte("null")`. -/
def nullBytes : List UInt8 := [110, 117, 108, 108]

/-- `appendUvarint`. -/
def appendUvarint (b : List UInt8) (x : UInt64) : List UInt8 := b ++ Binary.putUvarint x

/-- `CompactMarshal`; a nil array has `Count` zero and is written as `null`. -/
def compactMarshal (bA : Option CompactBitArray) : List UInt8 :=
  let size := count bA
  if size ≤ 0 then nullBytes
  else
    let bz := appendUvarint [] size.toNat.toUInt64
    bz ++ (bA.map elems).getD []

/-- `CompactUnmarshal`. -/
def compactUnmarshal (bz : List UInt8) : Result (Option CompactBitArray) :=
  if bz.length < 2 then fail "compact bit array: invalid compact unmarshal size"
  else if bz = nullBytes then pure (newCompactBitArray 0)
  else do
    let (size, n) := Binary.uvarint bz
    let bz ← sliceFrom bz n
    if (bz.length : Int) ≠ (Binary.toInt (size + 7)).tdiv 8 then
      fail "compact bit array: invalid compact unmarshal size"
    else pure (some ⟨(size % 8).toUInt32, bz⟩)

/-- The byte of `"`. -/
def quoteByte : UInt8 := 34

/-- `MarshalJSON`. -/
def marshalJSON : Option CompactBitArray → Result (List UInt8)
  | none => pure nullBytes
  | some bA => do
    let size := count (some bA)
    let bits ← (List.range size.toNat).foldlM (fun bits (i : Nat) => do
        let isSet ← getIndex (some bA) i
        pure (bits ++ [if isSet then 'x'.toUInt8 else '_'.toUInt8])) [quoteByte]
    pure (bits ++ [quoteByte])

/-- `bitArrayJSONRegexp.FindStringSubmatch`, `\A"([_x]*)"\z`: its group when
the whole text matches. -/
def bitArrayJSONSubmatch (bz : List UInt8) : Option (List UInt8) :=
  match bz with
  | [] => none
  | first :: rest =>
    if first = quoteByte ∧ rest.getLast? = some quoteByte ∧
        rest.dropLast.all (fun c => c == '_'.toUInt8 || c == 'x'.toUInt8) then some rest.dropLast
    else none

/-- The body of the copy loop of `UnmarshalJSON` at bit `i`. -/
def setIfX (bA2 : Option CompactBitArray) (entry : UInt8 × Nat) : Result (Option CompactBitArray) :=
  if entry.1 = 'x'.toUInt8 then do
    let (bA2, _) ← setIndex bA2 entry.2 true
    pure bA2
  else pure bA2

/-- `UnmarshalJSON`: the value `*bA` holds after it. The text of a byte string
that is not UTF-8 is not kept by a Lean string. -/
def unmarshalJSON (bz : List UInt8) : Result CompactBitArray :=
  if bz = nullBytes then pure ⟨0, []⟩
  else
    match bitArrayJSONSubmatch bz with
    | none =>
      fail ("bitArray in JSON should be a string of format " ++ "\"\\\\A\\\"([_x]*)\\\"\\\\z\"" ++ " but got " ++
        (String.fromUTF8? ⟨bz.toArray⟩).getD "")
    | some bits => do
      let bA2 ← bits.zipIdx.foldlM setIfX (newCompactBitArray bits.length)
      -- `*bA = *bA2`
      match bA2 with
      | none => panicWith nilDereference
      | some bA2 => pure bA2

/-! ## The binary codec -/

/-- What a well-sized array with bits says of its sizes: `Elems` has
`ceil(Count/8)` bytes and `ExtraBitsStored` is `Count % 8`. -/
theorem sizes_of_wellSized (bA : CompactBitArray) (wellSized : bA.WellSized) (nonempty : 0 < count (some bA)) :
    bA.elems.length = ((count (some bA)).toNat + 7) / 8 ∧
      (count (some bA)).toNat % 8 = bA.extraBitsStored.toNat := by
  unfold WellSized at wellSized
  simp only [count] at nonempty ⊢
  split_ifs at nonempty ⊢ with noExtra
  · have zero : bA.extraBitsStored.toNat = 0 := by rw [noExtra]; rfl
    omega
  · have nonzero : bA.extraBitsStored.toNat ≠ 0 := fun zero => noExtra (UInt32.toNat_inj.mp zero)
    omega

theorem compactMarshal_of_pos (bA : CompactBitArray) (nonempty : 0 < count (some bA)) :
    compactMarshal (some bA) = Binary.putUvarint (count (some bA)).toNat.toUInt64 ++ bA.elems := by
  rw [compactMarshal, if_neg (Int.not_le.mpr nonempty)]
  rfl

/-- The first byte of a value of two groups or more carries the continuation bit,
which the `n` of `null` does not. -/
theorem putUvarint_append_ne_nullBytes {size : UInt64} (large : 128 ≤ size.toNat) (tail : List UInt8) :
    Binary.putUvarint size ++ tail ≠ nullBytes := by
  rw [Binary.putUvarint, Binary.putUvarintFrom_succ_of_le 8 large, List.cons_append, nullBytes]
  intro same
  have byte := congrArg UInt8.toNat (List.cons.inj same).1
  rw [UInt8.toNat_or] at byte
  have high : 128 ≤ size.toUInt8.toNat ||| (0x80 : UInt8).toNat := Nat.right_le_or
  rw [byte] at high
  exact absurd high (by decide)

/-- The bytes `CompactMarshal` writes for an array with bits are not `null`: a
one-byte count of 110 would need fourteen bytes of bits. -/
theorem compactMarshal_ne_nullBytes (bA : CompactBitArray) (wellSized : bA.WellSized)
    (nonempty : 0 < count (some bA)) (fits : count (some bA) + 7 < 2 ^ 63) :
    Binary.putUvarint (count (some bA)).toNat.toUInt64 ++ bA.elems ≠ nullBytes := by
  have sizes := sizes_of_wellSized bA wellSized nonempty
  have value : (count (some bA)).toNat.toUInt64.toNat = (count (some bA)).toNat := by
    simp only [Nat.toUInt64, UInt64.toNat_ofNat']
    omega
  intro same
  by_cases small : (count (some bA)).toNat.toUInt64.toNat < 128
  · rw [Binary.putUvarint, Binary.putUvarintFrom_of_lt 9 small, List.singleton_append, nullBytes] at same
    obtain ⟨first, rest⟩ := List.cons.inj same
    have byte : (count (some bA)).toNat.toUInt64.toUInt8.toNat = 110 := by rw [first]; rfl
    rw [UInt64.toNat_toUInt8, value] at byte
    have three : bA.elems.length = 3 := by rw [rest]; rfl
    omega
  · exact putUvarint_append_ne_nullBytes (Nat.le_of_not_lt small) bA.elems same

/-- `CompactUnmarshal` reads back what `CompactMarshal` wrote for a well-sized
array with bits, while `Count + 7` is an `int`. -/
theorem compactUnmarshal_compactMarshal (bA : CompactBitArray) (wellSized : bA.WellSized)
    (nonempty : 0 < count (some bA)) (fits : count (some bA) + 7 < 2 ^ 63) :
    compactUnmarshal (compactMarshal (some bA)) = .ok (some bA) := by
  have sizes := sizes_of_wellSized bA wellSized nonempty
  have value : (count (some bA)).toNat.toUInt64.toNat = (count (some bA)).toNat := by
    simp only [Nat.toUInt64, UInt64.toNat_ofNat']
    omega
  have long : 2 ≤ (Binary.putUvarint (count (some bA)).toNat.toUInt64 ++ bA.elems).length := by
    have := Binary.length_putUvarintFrom_pos 9 (count (some bA)).toNat.toUInt64
    rw [List.length_append, Binary.putUvarint]
    omega
  have read := Binary.uvarint_putUvarint_append (count (some bA)).toNat.toUInt64 bA.elems
  have sliced := sliceFrom_append (Binary.putUvarint (count (some bA)).toNat.toUInt64) bA.elems
  -- `size + 7` is below `2^63`, so `int(size+7)/8` is the number of bytes of `Elems`
  have bound : (Binary.toInt ((count (some bA)).toNat.toUInt64 + 7)).tdiv 8 = bA.elems.length := by
    have sum : ((count (some bA)).toNat.toUInt64 + 7).toNat = (count (some bA)).toNat + 7 := by
      rw [UInt64.toNat_add, value]
      simp only [UInt64.reduceToNat]
      omega
    rw [Binary.toInt_eq, sum, if_pos (by omega), Int.tdiv_eq_ediv_of_nonneg (by omega), sizes.1]
    omega
  have extra : ((count (some bA)).toNat.toUInt64 % 8).toUInt32 = bA.extraBitsStored := by
    apply UInt32.toNat_inj.mp
    rw [UInt64.toNat_toUInt32, UInt64.toNat_mod, value, ← sizes.2]
    simp only [UInt64.reduceToNat]
    omega
  rw [compactMarshal_of_pos bA nonempty, compactUnmarshal, if_neg (by omega),
    if_neg (compactMarshal_ne_nullBytes bA wellSized nonempty fits)]
  simp only [read, sliced, ok_bind, bound, ne_eq, not_true_eq_false, reduceIte, extra, pure_eq_ok]

/-- Three bits, set, clear and set: the binary codec reads them back. -/
theorem compactUnmarshal_compactMarshal_three :
    compactUnmarshal (compactMarshal (some ⟨3, [0xA0]⟩)) = .ok (some ⟨3, [0xA0]⟩) :=
  compactUnmarshal_compactMarshal ⟨3, [0xA0]⟩ (by decide) (by decide) (by decide)

/-- From 2^64 - 7 on, `size + 7` wraps and the length it asks for is zero. -/
theorem tdiv_eight_of_wraps {size : UInt64} (large : 2 ^ 64 - 7 ≤ size.toNat) :
    (Binary.toInt (size + 7)).tdiv 8 = 0 := by
  have below := UInt64.toNat_lt size
  have sum : (size + 7).toNat = size.toNat + 7 - 2 ^ 64 := by
    rw [UInt64.toNat_add]
    simp only [UInt64.reduceToNat]
    omega
  rw [Binary.toInt_eq, sum, if_pos (by omega), Int.tdiv_eq_ediv_of_nonneg (by omega)]
  omega

/-- `CompactUnmarshal` is not total on well-formed results: a varint that
overflows gives a negative length, at which the buffer is sliced, and each of the
seven largest sizes, where `size+7` wraps, is accepted with no bytes and a
negative `Count`. -/
theorem compactUnmarshal_not_total :
    (∀ bz : List UInt8, 2 ≤ bz.length → bz ≠ nullBytes → (Binary.uvarint bz).2 < 0 →
      Panicked (compactUnmarshal bz)) ∧
    (∀ size : UInt64, 2 ^ 64 - 7 ≤ size.toNat →
      compactUnmarshal (Binary.putUvarint size) = .ok (some ⟨(size % 8).toUInt32, []⟩) ∧
        count (some ⟨(size % 8).toUInt32, []⟩) < 0) := by
  refine ⟨fun bz long notNull overflow => ?_, fun size large => ?_⟩
  · rw [compactUnmarshal, if_neg (by omega), if_neg notNull]
    cases read : Binary.uvarint bz with
    | mk size n =>
      rw [read] at overflow
      simp only [sliceFrom, if_neg (fun inside : 0 ≤ n ∧ n ≤ bz.length => absurd inside.1 (Int.not_le.mpr overflow))]
      apply panicked_bind
      exact ⟨_, rfl⟩
  · have twoGroups : 128 ≤ size.toNat := by omega
    have long := Binary.two_le_length_putUvarint twoGroups
    have notNull := putUvarint_append_ne_nullBytes twoGroups []
    rw [List.append_nil] at notNull
    have read := Binary.uvarint_putUvarint_append size []
    have sliced := sliceFrom_append (Binary.putUvarint size) []
    rw [List.append_nil] at read sliced
    have below := UInt64.toNat_lt size
    have extra : ((size % 8).toUInt32).toNat = size.toNat % 8 := by
      rw [UInt64.toNat_toUInt32, UInt64.toNat_mod]
      simp only [UInt64.reduceToNat]
      omega
    have extraNonzero : (size % 8).toUInt32 ≠ 0 := by
      intro zero
      rw [zero] at extra
      simp only [UInt32.reduceToNat] at extra
      omega
    refine ⟨?_, ?_⟩
    · rw [compactUnmarshal, if_neg (by omega), if_neg notNull]
      simp only [read, sliced, ok_bind, List.length_nil, tdiv_eight_of_wraps large, Nat.cast_zero, ne_eq, not_true_eq_false,
        reduceIte, pure_eq_ok]
    · simp only [count, extraNonzero, reduceIte, List.length_nil, extra]
      omega

/-- Nine continued bytes and a last byte of 2 overflow; the largest `uint64`
is read back with a `Count` of -1. -/
theorem compactUnmarshal_not_total_ten_bytes :
    Panicked (compactUnmarshal (List.replicate 9 0xFF ++ [0x02])) ∧
      compactUnmarshal (Binary.putUvarint 0xFFFFFFFFFFFFFFFF) = .ok (some ⟨7, []⟩) ∧
        count (some ⟨7, []⟩) = -1 :=
  ⟨compactUnmarshal_not_total.1 _ (by decide) (by decide) (by decide),
    (compactUnmarshal_not_total.2 0xFFFFFFFFFFFFFFFF (by decide)).1, by decide⟩

/-! ## The JSON codec -/

theorem foldl_append_singleton {α β : Type} (f : α → β) (xs : List α) (init : List β) :
    xs.foldl (fun acc x => acc ++ [f x]) init = init ++ xs.map f := by
  induction xs generalizing init with
  | nil => simp
  | cons x xs induction => rw [List.foldl_cons, induction, List.map_cons, List.append_assoc, List.singleton_append]

/-- The characters `MarshalJSON` writes for the bits below `n`. -/
def bitChars (bA : Option CompactBitArray) (n : Nat) : List UInt8 :=
  (List.range n).map fun i => if bit bA i then 'x'.toUInt8 else '_'.toUInt8

theorem length_bitChars (bA : Option CompactBitArray) (n : Nat) : (bitChars bA n).length = n := by
  simp [bitChars]

theorem bitChars_valid (bA : Option CompactBitArray) (n : Nat) :
    ∀ c ∈ bitChars bA n, c = '_'.toUInt8 ∨ c = 'x'.toUInt8 := by
  intro c member
  obtain ⟨i, -, rfl⟩ := List.mem_map.mp member
  by_cases isSet : bit bA i <;> simp [isSet]

theorem underscore_ne_x : '_'.toUInt8 ≠ 'x'.toUInt8 := by decide

/-- An `x` stands at `j` exactly where bit `j` below `n` is set. -/
theorem getElem?_bitChars_eq_x (bA : Option CompactBitArray) (n j : Nat) :
    (bitChars bA n)[j]? = some 'x'.toUInt8 ↔ j < n ∧ bit bA j = true := by
  rw [bitChars, List.getElem?_map]
  by_cases inside : j < n
  · rw [List.getElem?_range inside, Option.map_some, Option.some.injEq]
    by_cases isSet : bit bA j <;> simp [isSet, inside, underscore_ne_x]
  · rw [List.getElem?_eq_none (by simpa using Nat.le_of_not_lt inside)]
    simp [inside]

theorem marshalJSON_of_wellSized (bA : CompactBitArray) (wellSized : bA.WellSized) :
    marshalJSON (some bA) = .ok (quoteByte :: (bitChars (some bA) (count (some bA)).toNat ++ [quoteByte])) := by
  have looped := foldlM_eq_ok_foldl (fun bits (i : Nat) => do
      let isSet ← getIndex (some bA) i
      pure (bits ++ [if isSet then 'x'.toUInt8 else '_'.toUInt8]))
    (fun bits i => bits ++ [if bit (some bA) i then 'x'.toUInt8 else '_'.toUInt8])
    (List.range (count (some bA)).toNat) [quoteByte]
    (fun acc i _ => by rw [getIndex_natCast (some bA) (by simpa using wellSized) i, ok_bind, pure_eq_ok])
  rw [foldl_append_singleton] at looped
  rw [marshalJSON, looped, ok_bind, pure_eq_ok]
  rfl

theorem bitArrayJSONSubmatch_quoted (chars : List UInt8) (valid : ∀ c ∈ chars, c = '_'.toUInt8 ∨ c = 'x'.toUInt8) :
    bitArrayJSONSubmatch (quoteByte :: (chars ++ [quoteByte])) = some chars := by
  have all : chars.all (fun c => c == '_'.toUInt8 || c == 'x'.toUInt8) = true := by
    rw [List.all_eq_true]
    intro c member
    rcases valid c member with same | same <;> simp [same]
  rw [bitArrayJSONSubmatch, List.getLast?_concat, List.dropLast_concat, if_pos ⟨rfl, rfl, all⟩]

theorem eq_of_bitArrayJSONSubmatch {bz bits : List UInt8} (matched : bitArrayJSONSubmatch bz = some bits) :
    bz = quoteByte :: (bits ++ [quoteByte]) := by
  cases bz with
  | nil => cases matched
  | cons first rest =>
    rw [bitArrayJSONSubmatch] at matched
    split_ifs at matched with shape
    obtain ⟨opening, closing, -⟩ := shape
    cases matched
    rw [opening, List.dropLast_append_getLast? quoteByte closing]

theorem valid_of_bitArrayJSONSubmatch {bz bits : List UInt8} (matched : bitArrayJSONSubmatch bz = some bits) :
    ∀ c ∈ bits, c = '_'.toUInt8 ∨ c = 'x'.toUInt8 := by
  cases bz with
  | nil => cases matched
  | cons first rest =>
    rw [bitArrayJSONSubmatch] at matched
    split_ifs at matched with shape
    obtain ⟨-, -, all⟩ := shape
    cases matched
    intro c member
    simpa using List.all_eq_true.mp all c member

/-- `NewCompactBitArray` of a positive size: a well-sized array of that `Count`
with no bit set. -/
theorem newCompactBitArray_fresh (n : Nat) (positive : 0 < n) :
    ∃ fresh, newCompactBitArray n = some fresh ∧ fresh.WellSized ∧ count (some fresh) = n ∧
      ∀ j, bit (some fresh) j = false := by
  obtain ⟨fresh, made⟩ : ∃ fresh, newCompactBitArray n = some fresh := ⟨_, newCompactBitArray_natCast n positive⟩
  refine ⟨fresh, made, newCompactBitArray_wellSized n positive fresh made, ?_, fun j => ?_⟩
  · rw [← made]
    exact count_newCompactBitArray n positive
  · rw [← made]
    exact bit_newCompactBitArray n j

/-- The copy loop of `UnmarshalJSON` on a well-sized array whose indices are
below `Count`: it sets the bits at the positions of an `x`, and no other. -/
theorem foldlM_setIfX (entries : List (UInt8 × Nat)) :
    ∀ bA : CompactBitArray, bA.WellSized → (∀ e ∈ entries, (e.2 : Int) < count (some bA)) →
      ∃ bA', entries.foldlM setIfX (some bA) = .ok (some bA') ∧ bA'.WellSized ∧
        count (some bA') = count (some bA) ∧
        ∀ j, bit (some bA') j = (bit (some bA) j || decide (('x'.toUInt8, j) ∈ entries)) := by
  induction entries with
  | nil =>
    intro bA wellSized _
    exact ⟨bA, rfl, wellSized, rfl, fun j => by simp⟩
  | cons e rest induction =>
    intro bA wellSized inside
    have below := inside e List.mem_cons_self
    obtain ⟨c, i⟩ := e
    by_cases isX : c = 'x'.toUInt8
    · subst isX
      have stepped : setIfX (some bA) ('x'.toUInt8, i) = .ok (some (setBit bA i)) := by
        rw [setIfX, if_pos rfl, setIndex_true bA wellSized i below]
        rfl
      obtain ⟨bA', folded, wellSized', counted, bits⟩ := induction (setBit bA i) (wellSized_setBit bA wellSized i)
        fun e member => by rw [count_setBit]; exact inside e (List.mem_cons_of_mem _ member)
      refine ⟨bA', by rw [List.foldlM_cons, stepped, ok_bind, folded], wellSized',
        by rw [counted, count_setBit], fun j => ?_⟩
      rw [bits j, bit_setBit bA wellSized i j below]
      by_cases same : j = i <;> simp [same]
    · have stepped : setIfX (some bA) (c, i) = .ok (some bA) := by
        rw [setIfX, if_neg isX]
        rfl
      obtain ⟨bA', folded, wellSized', counted, bits⟩ := induction bA wellSized
        fun e member => inside e (List.mem_cons_of_mem _ member)
      refine ⟨bA', by rw [List.foldlM_cons, stepped, ok_bind, folded], wellSized', counted, fun j => ?_⟩
      have other : ('x'.toUInt8, j) ≠ (c, i) := fun same => isX (Prod.mk.inj same).1.symm
      rw [bits j]
      simp [other]

/-- A text `"[_x]*"` with bits: an array of that many bits, set where the text
has an `x`. -/
theorem unmarshalJSON_quoted (chars : List UInt8) (nonempty : chars ≠ [])
    (valid : ∀ c ∈ chars, c = '_'.toUInt8 ∨ c = 'x'.toUInt8) :
    ∃ bA, unmarshalJSON (quoteByte :: (chars ++ [quoteByte])) = .ok bA ∧ count (some bA) = chars.length ∧
      ∀ j, bit (some bA) j = decide (chars[j]? = some 'x'.toUInt8) := by
  obtain ⟨fresh, made, freshWell, freshCount, cleared⟩ :=
    newCompactBitArray_fresh chars.length (List.length_pos_iff.mpr nonempty)
  -- every index of the text is below the fresh array's `Count`
  obtain ⟨bA, folded, -, counted, bits⟩ := foldlM_setIfX chars.zipIdx fresh freshWell fun e member => by
    have bound := (List.mem_zipIdx member).2.1
    rw [freshCount]
    omega
  have notNull : quoteByte :: (chars ++ [quoteByte]) ≠ nullBytes := by
    simp [nullBytes, quoteByte]
  refine ⟨bA, ?_, by rw [counted, freshCount], fun j => ?_⟩
  · rw [unmarshalJSON, if_neg notNull, bitArrayJSONSubmatch_quoted chars valid]
    simp only [made, folded, ok_bind]
    rfl
  · rw [bits j, cleared, Bool.false_or]
    simp [List.mem_zipIdx_iff_getElem?]

/-- `UnmarshalJSON` reads back what `MarshalJSON` wrote for a well-sized array
with bits: the same `Count` and the same bit at every index. -/
theorem unmarshalJSON_marshalJSON_sameBits (bA : CompactBitArray) (wellSized : bA.WellSized) (nonempty : 0 < count (some bA)) :
    ∃ bz bA', marshalJSON (some bA) = .ok bz ∧ unmarshalJSON bz = .ok bA' ∧
      count (some bA') = count (some bA) ∧ ∀ i, bit (some bA') i = bit (some bA) i := by
  obtain ⟨n, counted⟩ : ∃ n : Nat, count (some bA) = n := ⟨(count (some bA)).toNat, by omega⟩
  have written : bitChars (some bA) n ≠ [] := by
    rw [← List.length_pos_iff, length_bitChars]
    omega
  obtain ⟨bA', returned, countedAfter, bits⟩ := unmarshalJSON_quoted _ written (bitChars_valid _ _)
  refine ⟨_, bA', marshalJSON_of_wellSized bA wellSized, ?_, by rw [countedAfter, length_bitChars, counted], ?_⟩
  · rw [counted, Int.toNat_natCast]
    exact returned
  · -- the text has an `x` below `Count` where the bit is set, and no bit is set past it
    intro j
    rw [bits j]
    by_cases below : j < n
    · by_cases isSet : bit (some bA) j <;> simp [getElem?_bitChars_eq_x, below, isSet]
    · rw [bit_of_count_le (some bA) j (by omega)]
      simp [getElem?_bitChars_eq_x, below]

/-- Three bits, set, clear and set: the JSON codec reads them back. -/
theorem unmarshalJSON_marshalJSON_three :
    ∃ bz bA', marshalJSON (some ⟨3, [0xA0]⟩) = .ok bz ∧ unmarshalJSON bz = .ok bA' ∧
      count (some bA') = count (some ⟨3, [0xA0]⟩) ∧ ∀ i, bit (some bA') i = bit (some ⟨3, [0xA0]⟩) i :=
  unmarshalJSON_marshalJSON_sameBits ⟨3, [0xA0]⟩ (by decide) (by decide)

/-- An array with no bits, such as the one `UnmarshalJSON` makes of `null`, is
written as `""`, and `UnmarshalJSON` of `""` copies through the nil array
`NewCompactBitArray(0)`. -/
theorem marshalJSON_empty_unmarshalJSON_panics (bA : CompactBitArray) (empty : count (some bA) ≤ 0) :
    marshalJSON (some bA) = .ok [quoteByte, quoteByte] ∧ Panicked (unmarshalJSON [quoteByte, quoteByte]) := by
  refine ⟨?_, ⟨nilDereference, rfl⟩⟩
  simp only [marshalJSON, Int.toNat_of_nonpos empty, List.range_zero, List.foldlM_nil, ok_bind, pure_eq_ok]
  rfl

/-- The array `UnmarshalJSON` makes of `null` has no bits and is written as `""`. -/
theorem marshalJSON_empty_unmarshalJSON_panics_null :
    unmarshalJSON nullBytes = .ok ⟨0, []⟩ ∧ count (some ⟨0, []⟩) ≤ 0 ∧
      marshalJSON (some ⟨0, []⟩) = .ok [quoteByte, quoteByte] ∧ Panicked (unmarshalJSON [quoteByte, quoteByte]) :=
  ⟨rfl, by decide, marshalJSON_empty_unmarshalJSON_panics ⟨0, []⟩ (by decide)⟩

/-- A text that is neither `null` nor `"[_x]*"` is an error. -/
theorem unmarshalJSON_of_unmatched {bz : List UInt8} (notNull : bz ≠ nullBytes)
    (unmatched : ∀ chars, (∀ c ∈ chars, c = '_'.toUInt8 ∨ c = 'x'.toUInt8) →
      bz ≠ quoteByte :: (chars ++ [quoteByte])) :
    ∃ message, unmarshalJSON bz = fail message := by
  cases matched : bitArrayJSONSubmatch bz with
  | none => exact ⟨_, by rw [unmarshalJSON, if_neg notNull, matched]⟩
  | some bits =>
    exact absurd (eq_of_bitArrayJSONSubmatch matched) (unmatched bits (valid_of_bitArrayJSONSubmatch matched))

/-- `UnmarshalJSON` panics on `""` and on nothing else: `null` gives the array
with no bits, a text `"[_x]*"` with bits gives an array of that many bits, set
where the text has an `x`, and every other text is an error. -/
theorem unmarshalJSON_panics_iff (bz : List UInt8) :
    (Panicked (unmarshalJSON bz) ↔ bz = [quoteByte, quoteByte]) ∧
    (bz = nullBytes → unmarshalJSON bz = .ok ⟨0, []⟩) ∧
    (∀ chars, chars ≠ [] → (∀ c ∈ chars, c = '_'.toUInt8 ∨ c = 'x'.toUInt8) →
      bz = quoteByte :: (chars ++ [quoteByte]) →
      ∃ bA, unmarshalJSON bz = .ok bA ∧ count (some bA) = chars.length ∧
        ∀ j, bit (some bA) j = decide (chars[j]? = some 'x'.toUInt8)) ∧
    (bz ≠ nullBytes → (∀ chars, (∀ c ∈ chars, c = '_'.toUInt8 ∨ c = 'x'.toUInt8) →
      bz ≠ quoteByte :: (chars ++ [quoteByte])) → ∃ message, unmarshalJSON bz = fail message) := by
  have null : bz = nullBytes → unmarshalJSON bz = .ok ⟨0, []⟩ := fun isNull => by
    rw [unmarshalJSON, if_pos isNull]
    rfl
  have quoted : ∀ chars, chars ≠ [] → (∀ c ∈ chars, c = '_'.toUInt8 ∨ c = 'x'.toUInt8) →
      bz = quoteByte :: (chars ++ [quoteByte]) →
      ∃ bA, unmarshalJSON bz = .ok bA ∧ count (some bA) = chars.length ∧
        ∀ j, bit (some bA) j = decide (chars[j]? = some 'x'.toUInt8) := by
    rintro chars nonempty valid rfl
    exact unmarshalJSON_quoted chars nonempty valid
  refine ⟨⟨fun panicked => ?_, ?_⟩, null, quoted, unmarshalJSON_of_unmatched⟩
  · -- `null`, a text with bits and an unmatched text all return; only `""` is left
    by_cases isNull : bz = nullBytes
    · exact absurd (null isNull ▸ panicked) (not_panicked_ok _)
    cases matched : bitArrayJSONSubmatch bz with
    | none =>
      rw [unmarshalJSON, if_neg isNull, matched] at panicked
      exact absurd panicked (not_panicked_fail _)
    | some bits =>
      have shape := eq_of_bitArrayJSONSubmatch matched
      cases bits with
      | nil => exact shape
      | cons c rest =>
        obtain ⟨bA, returned, -⟩ := quoted (c :: rest) (List.cons_ne_nil c rest)
          (valid_of_bitArrayJSONSubmatch matched) shape
        exact absurd (returned ▸ panicked) (not_panicked_ok _)
  · rintro rfl
    exact ⟨nilDereference, rfl⟩

end CompactBitArray

end CoreSdk.Crypto
