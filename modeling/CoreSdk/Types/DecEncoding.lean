import CoreSdk.Types.Dec
import CoreSdk.Types.Int
import Mathlib.Data.String.Basic

/-!
# Encodings of decimals

The two encodings of `Dec` in `types/dec.go`.

The binary one (`Marshal`, `MarshalTo`, `Unmarshal`, also behind the amino
codec) writes the integer `d.i` as decimal text and reads it back with
`(*big.Int).UnmarshalText`, which scans in base 0 (`unmarshalText`). Reading checks the
value against the bound of `Int`, 255 bits, not the 315 bits the arithmetic
of `Dec` allows, so it refuses values that `Add` or `NewDecFromInt` produce.

The text one (`String` and `NewDecFromStr`, and the JSON codec over them)
writes the integer with a decimal point 18 digits from the right and parses
that text back, for every value.
-/

namespace CoreSdk.Types.Dec

open Go Go.Big

set_option autoImplicit false

/-! ## The binary codec -/

/-- `Dec.Marshal`. -/
def marshal (d : Dec) : String := text d.i

/-- `Dec.MarshalTo`: the bytes it writes at the start of `data`. -/
def marshalTo (d : Dec) : String := if d.i = 0 then "0" else marshal d

theorem marshalTo_eq_marshal (d : Dec) : marshalTo d = marshal d := by
  unfold marshalTo
  split_ifs with zero
  · rw [marshal, zero]
    rfl
  · rfl

theorem text_utf8ByteSize_pos (x : Int) : 0 < (text x).utf8ByteSize := by
  rw [text, String.utf8ByteSize_ofList, String.utf8Len_append]
  obtain ⟨c, rest, digits⟩ := List.exists_cons_of_ne_nil (Nat.toDigits_ne_nil (n := x.natAbs) (b := 10))
  rw [digits, String.utf8Len_cons]
  have := Char.utf8Size_pos c
  omega

section Unmarshal

variable (unmarshalText : String → Except String Int)

/-- `Dec.Unmarshal`, with `(*big.Int).UnmarshalText` as `unmarshalText`. -/
def unmarshal (d : Dec) (data : String) : Except String Dec :=
  if data.utf8ByteSize = 0 then
    -- `d = nil` rebinds the receiver only: the caller's decimal keeps its value
    .ok d
  else do
    let i ← unmarshalText data
    if bitLen i > SdkInt.maxBitLen then
      throw ("decimal out of range; got: " ++ toString (bitLen i) ++ ", max: " ++
        toString SdkInt.maxBitLen)
    pure ⟨i⟩

variable (textRoundTrip : ∀ x, unmarshalText (text x) = .ok x)
include textRoundTrip

theorem unmarshal_marshal_of_le (current d : Dec) (fits : bitLen d.i ≤ SdkInt.maxBitLen) :
    unmarshal unmarshalText current (marshal d) = .ok d := by
  rw [unmarshal, marshal, if_neg (Nat.ne_of_gt (text_utf8ByteSize_pos d.i)), textRoundTrip]
  simp only [bind, Except.bind, gt_iff_lt, if_neg (Nat.not_lt.mpr fits)]
  rfl

theorem unmarshal_marshal_of_gt (current d : Dec) (tooLong : SdkInt.maxBitLen < bitLen d.i) :
    unmarshal unmarshalText current (marshal d) =
      .error ("decimal out of range; got: " ++ toString (bitLen d.i) ++ ", max: " ++
        toString SdkInt.maxBitLen) := by
  rw [unmarshal, marshal, if_neg (Nat.ne_of_gt (text_utf8ByteSize_pos d.i)), textRoundTrip]
  simp only [bind, Except.bind, gt_iff_lt, if_pos tooLong]
  rfl

end Unmarshal

/-- `NewDecFromInt` of a 201-bit `Int`: its integer has 260 bits, inside the
bound of `Add`, and the binary codec refuses it. -/
theorem unmarshal_marshal_newDecFromInt_fails (unmarshalText : String → Except String Int)
    (textRoundTrip : ∀ x, unmarshalText (text x) = .ok x) (current : Dec) :
    bitLen ((2 ^ 200 : Nat) : Int) ≤ SdkInt.maxBitLen ∧
      newDecFromInt ((2 ^ 200 : Nat) : Int) = .ok ⟨((2 ^ 200 * 10 ^ 18 : Nat) : Int)⟩ ∧
      bitLen ((2 ^ 200 * 10 ^ 18 : Nat) : Int) ≤ 255 + decimalPrecisionBits ∧
      unmarshal unmarshalText current (marshal ⟨((2 ^ 200 * 10 ^ 18 : Nat) : Int)⟩) =
        .error "decimal out of range; got: 260, max: 255" := by
  have intBits : bitLen ((2 ^ 200 : Nat) : Int) = 201 := bitLen_two_pow 200
  -- `10^18` has 60 bits, and the factor `2^200` adds 200 more
  have precisionBits : bitLen ((10 ^ 18 : Nat) : Int) = 60 :=
    bitLen_eq_of_bounds _ 59 (by rw [Int.natAbs_natCast]; decide) (by rw [Int.natAbs_natCast]; decide)
  have decBits : bitLen ((2 ^ 200 * 10 ^ 18 : Nat) : Int) = 260 := by
    rw [Nat.mul_comm, bitLen_natCast_mul_two_pow _ _ (by decide), precisionBits]
  refine ⟨by rw [intBits]; decide, by rw [newDecFromInt_eq]; rfl, by rw [decBits]; decide, ?_⟩
  rw [unmarshal_marshal_of_gt unmarshalText textRoundTrip current _ (by rw [decBits]; decide), decBits]
  decide

/-- `(*big.Int).UnmarshalText`: `SetString` in base 0, where a prefix or a
leading zero picks the base. Go quotes the text of the error with `%q`; it is
put between quotes as it is, which is what `%q` writes for printable text
without quotes or backslashes. -/
def unmarshalText (data : String) : Except String Int :=
  match setString0 data with
  | some x => .ok x
  | none => .error ("math/big: cannot unmarshal \x22" ++ data ++ "\x22 into a *big.Int")

/-- What `Text(10)` writes reads back in base 0: it has no prefix and no leading zero. -/
theorem unmarshalText_text (x : Int) : unmarshalText (text x) = .ok x := by
  rw [unmarshalText, setString0_text]

theorem unmarshal_marshal_newDecFromInt_fails_setString :
    unmarshal unmarshalText ⟨0⟩ (marshal ⟨((2 ^ 200 * 10 ^ 18 : Nat) : Int)⟩) =
      .error "decimal out of range; got: 260, max: 255" :=
  (unmarshal_marshal_newDecFromInt_fails unmarshalText unmarshalText_text ⟨0⟩).2.2.2

/-- The binary codec undoes itself exactly on the decimals whose integer has at
most the 255 bits of an `Int`, whatever the receiver, and `MarshalTo` writes
what `Marshal` does. -/
theorem unmarshal_marshal_iff (current d : Dec) :
    (unmarshal unmarshalText current (marshal d) = .ok d ↔ bitLen d.i ≤ SdkInt.maxBitLen) ∧
      unmarshal unmarshalText current (marshalTo d) = unmarshal unmarshalText current (marshal d) := by
  refine ⟨⟨fun decoded => ?_, unmarshal_marshal_of_le unmarshalText unmarshalText_text current d⟩,
    by rw [marshalTo_eq_marshal]⟩
  by_contra tooLong
  rw [unmarshal_marshal_of_gt unmarshalText unmarshalText_text current d (Nat.lt_of_not_le tooLong)] at decoded
  cases decoded

theorem unmarshal_marshal_iff_five :
    unmarshal unmarshalText ⟨0⟩ (marshal ⟨5⟩) = .ok ⟨5⟩ :=
  (unmarshal_marshal_iff ⟨0⟩ ⟨5⟩).1.mpr ((bitLen_le_iff _ _).mpr (by decide))

/-! ## The text codec -/

/-- `ErrEmptyDecimalStr`. -/
def errEmptyDecimalStr : String := "decimal string cannot be empty"

/-- `ErrInvalidDecimalLength`. -/
def errInvalidDecimalLength : String := "invalid decimal length"

/-- `ErrInvalidDecimalStr`. -/
def errInvalidDecimalStr : String := "invalid decimal string"

/-- The digits `Dec.String` writes for the absolute value: the integer text with
a decimal point `Precision` places from the right, after zeros when it has no
more than `Precision` digits. -/
def pointDigits (bzInt : List Char) : List Char :=
  let inputSize := bzInt.length
  -- case 1, purely decimal
  if inputSize ≤ precision then
    ['0', '.'] ++ List.replicate (precision - inputSize) '0' ++ bzInt
  else
    let decPointPlace := inputSize - precision
    bzInt.take decPointPlace ++ ['.'] ++ bzInt.drop decPointPlace

/-- `Dec.String`. `MarshalText` writes ASCII, so the lengths in bytes the source
works with are lengths in characters. -/
def string (d : Dec) : String :=
  let isNeg := isNegative d
  let d := if isNeg then neg d else d
  let bzStr := pointDigits (text d.i).toList
  if isNeg then "-" ++ String.ofList bzStr else String.ofList bzStr

/-- `NewDecFromStr`. -/
def newDecFromStr (str : String) : Except String Dec := do
  if str.utf8ByteSize = 0 then throw errEmptyDecimalStr
  -- first extract any negative symbol
  let (neg, str) : Bool × String :=
    if str.toList.head? = some '-' then (true, String.ofList str.toList.tail) else (false, str)
  if str.utf8ByteSize = 0 then throw errEmptyDecimalStr
  let strs := (str.toList.splitOn '.').map String.ofList
  let (lenDecs, combinedStr) ← match strs with
    | [whole] => pure (0, whole)
    -- has a decimal place
    | [whole, fraction] =>
        if fraction.utf8ByteSize = 0 ∨ whole.utf8ByteSize = 0 then throw errInvalidDecimalLength
        else pure (fraction.utf8ByteSize, whole ++ fraction)
    | _ => throw errInvalidDecimalStr
  if lenDecs > precision then
    throw ("invalid precision; max: " ++ toString precision ++ ", got: " ++ toString lenDecs)
  -- add some extra zero's to correct to the Precision factor
  let combinedStr := combinedStr ++ String.ofList (List.replicate (precision - lenDecs) '0')
  match setString combinedStr with
  | none => throw ("failed to set decimal string: " ++ combinedStr)
  | some combined => pure ⟨if neg then -combined else combined⟩

section Json

variable (jsonMarshalString : String → String) (jsonUnmarshalString : String → Except String String)

/-- `Dec.MarshalJSON`, with `json.Marshal` of a string as `jsonMarshalString`. -/
def marshalJSON (d : Dec) : String := jsonMarshalString (string d)

/-- `Dec.UnmarshalJSON`, with `json.Unmarshal` into a string as `jsonUnmarshalString`. -/
def unmarshalJSON (bz : String) : Except String Dec := do
  let str ← jsonUnmarshalString bz
  let newDec ← newDecFromStr str
  pure ⟨newDec.i⟩

/-- `json.Marshal` of a string none of whose characters JSON escapes, as the
text of a decimal: the string between quotes. -/
def quoteJSON (s : String) : String := "\x22" ++ s ++ "\x22"

/-- `json.Unmarshal` into a string of a text with no escape in it: the
characters between the quotes. -/
def unquoteJSON (bz : String) : Except String String :=
  match bz.toList with
  | '\x22' :: rest =>
      match rest.reverse with
      | '\x22' :: inner => .ok (String.ofList inner.reverse)
      | _ => .error "unexpected end of JSON input"
  | _ => .error "json: cannot unmarshal number into Go value of type string"

theorem unquoteJSON_quoteJSON (s : String) : unquoteJSON (quoteJSON s) = .ok s := by
  have quoted : (quoteJSON s).toList = '\x22' :: (s.toList ++ ['\x22']) := by
    simp [quoteJSON, String.toList_append]
  rw [unquoteJSON, quoted]
  simp

end Json

/-- `String` in terms of the sign and the digits of the absolute value. -/
theorem string_eq (d : Dec) :
    string d = (if d.i < 0 then "-" else "") ++ String.ofList (pointDigits (Nat.toDigits 10 d.i.natAbs)) := by
  by_cases negative : d.i < 0
  · have notPositive : ¬ 0 < d.i := by omega
    simp [string, isNegative, neg, negative, text, notPositive, Int.natAbs_neg]
  · simp [string, isNegative, negative, text]

/-- What `String` writes around its decimal point: a non-empty whole part and
exactly `Precision` fraction digits, which read together give the integer. -/
theorem pointDigits_split (digits : List Char) (nonempty : digits ≠ [])
    (allDigits : ∀ c ∈ digits, c.isDigit = true) :
    ∃ whole fraction, pointDigits digits = whole ++ '.' :: fraction ∧ whole ≠ [] ∧
      (∀ c ∈ whole ++ fraction, c.isDigit = true) ∧ fraction.length = precision ∧
      digitsValue (whole ++ fraction) = digitsValue digits := by
  have zeroDigit : ∀ k, ∀ c ∈ List.replicate k '0', c.isDigit = true := by
    intro k c member
    rw [List.eq_of_mem_replicate member]
    rfl
  by_cases short : digits.length ≤ precision
  · -- a pure fraction: `0.` and zeros up to `Precision` digits
    refine ⟨['0'], List.replicate (precision - digits.length) '0' ++ digits, ?_, by simp, ?_, ?_, ?_⟩
    · simp [pointDigits, short]
    · intro c member
      simp only [List.singleton_append, List.mem_cons, List.mem_append] at member
      rcases member with rfl | inZeros | inDigits
      · rfl
      · exact zeroDigit _ c inZeros
      · exact allDigits c inDigits
    · simp only [List.length_append, List.length_replicate]
      omega
    · rw [List.singleton_append, ← List.cons_append, ← List.replicate_succ, digitsValue_zeros_append]
  · have long : precision < digits.length := by omega
    refine ⟨digits.take (digits.length - precision), digits.drop (digits.length - precision), ?_, ?_,
      ?_, ?_, ?_⟩
    · simp [pointDigits, short]
    · simp only [ne_eq, List.take_eq_nil_iff, not_or]
      exact ⟨by omega, nonempty⟩
    · rw [List.take_append_drop]
      exact allDigits
    · simp only [List.length_drop]
      omega
    · rw [List.take_append_drop]

/-- `NewDecFromStr` on a sign, a whole part, a point and at most `Precision`
fraction digits: the digits read together, scaled by the missing places. -/
theorem newDecFromStr_of_point (negative : Bool) (whole fraction : List Char)
    (wholeNonempty : whole ≠ []) (fractionNonempty : fraction ≠ [])
    (allDigits : ∀ c ∈ whole ++ fraction, c.isDigit = true) (short : fraction.length ≤ precision) :
    newDecFromStr ((if negative then "-" else "") ++ String.ofList (whole ++ '.' :: fraction)) =
      let value : Int := digitsValue (whole ++ fraction ++ List.replicate (precision - fraction.length) '0')
      .ok ⟨if negative then -value else value⟩ := by
  have wholeDigits : ∀ c ∈ whole, c.isDigit = true := fun c inWhole => allDigits c (by simp [inWhole])
  have fractionDigits : ∀ c ∈ fraction, c.isDigit = true :=
    fun c inFraction => allDigits c (by simp [inFraction])
  have noPoint : ∀ l ∈ [whole, fraction], '.' ∉ l := by
    intro l member point
    have : l = whole ∨ l = fraction := by simpa using member
    rcases this with rfl | rfl
    · exact absurd (wholeDigits '.' point) (by decide)
    · exact absurd (fractionDigits '.' point) (by decide)
  have fractionSize := utf8ByteSize_of_digits fraction fractionDigits
  have zeroDigits : ∀ c ∈ List.replicate (precision - fraction.length) '0', c.isDigit = true := by
    intro c member
    rw [List.eq_of_mem_replicate member]
    rfl
  have combined : setString (String.ofList whole ++ String.ofList fraction ++
      String.ofList (List.replicate (precision - fraction.length) '0')) =
      some (digitsValue (whole ++ fraction ++ List.replicate (precision - fraction.length) '0') : Int) := by
    rw [← String.ofList_append, ← String.ofList_append]
    apply setString_of_digits _ (by simp [wholeNonempty])
    intro c member
    rcases List.mem_append.mp member with inDigits | inZeros
    · exact allDigits c inDigits
    · exact zeroDigits c inZeros
  obtain ⟨first, rest, rfl⟩ := List.exists_cons_of_ne_nil wholeNonempty
  have notMinus : first ≠ '-' := by
    intro minus
    exact absurd (wholeDigits first List.mem_cons_self) (by rw [minus]; decide)
  -- the one point splits the text into the whole part and the fraction
  have split : List.splitOn '.' (first :: (rest ++ '.' :: fraction)) = [first :: rest, fraction] := by
    simpa using List.splitOn_intercalate '.' noPoint (by simp)
  have firstSize : first.utf8Size ≠ 0 := Nat.ne_of_gt (Char.utf8Size_pos first)
  rw [String.ofList_cons] at combined
  cases negative
  · simp [newDecFromStr, notMinus, split, fractionSize, fractionNonempty, firstSize,
      Nat.not_lt.mpr short, combined]
    rfl
  · simp [newDecFromStr, split, fractionSize, fractionNonempty, firstSize, Nat.not_lt.mpr short,
      combined]
    rfl

theorem newDecFromStr_string (d : Dec) : newDecFromStr (string d) = .ok d := by
  obtain ⟨whole, fraction, split, wholeNonempty, allDigits, exact, value⟩ :=
    pointDigits_split (Nat.toDigits 10 d.i.natAbs) Nat.toDigits_ne_nil (fun c => isDigit_of_mem_toDigits)
  have fractionNonempty : fraction ≠ [] := by
    intro empty
    rw [empty] at exact
    exact absurd exact (by decide)
  have signed : (if d.i < 0 then "-" else "") = (if decide (d.i < 0) then "-" else "") := by simp
  rw [string_eq, split, signed,
    newDecFromStr_of_point _ whole fraction wholeNonempty fractionNonempty allDigits (by omega)]
  simp only [exact, Nat.sub_self, List.replicate_zero, List.append_nil, value, digitsValue_toDigits]
  by_cases negative : d.i < 0
  · simp only [negative, decide_true, if_true]
    congr
    omega
  · simp only [negative, decide_false, Bool.false_eq_true, if_false]
    congr
    omega

/-- `NewDecFromStr` on a text with no point: one leading `-` is taken off, and
the rest, padded with `Precision` zeros, goes to `SetString` as it is. -/
theorem newDecFromStr_of_whole (negative : Bool) (body : List Char) (nonempty : body ≠ [])
    (noPoint : '.' ∉ body) (unsigned : negative = false → body.head? ≠ some '-') :
    newDecFromStr ((if negative then "-" else "") ++ String.ofList body) =
      match setString (String.ofList (body ++ List.replicate precision '0')) with
      | none => .error ("failed to set decimal string: " ++
          String.ofList (body ++ List.replicate precision '0'))
      | some combined => .ok ⟨if negative then -combined else combined⟩ := by
  obtain ⟨first, rest, rfl⟩ := List.exists_cons_of_ne_nil nonempty
  have firstSize : first.utf8Size ≠ 0 := Nat.ne_of_gt (Char.utf8Size_pos first)
  have split := List.splitOn_eq_singleton noPoint
  cases negative
  · have notMinus : first ≠ '-' := by simpa using unsigned rfl
    simp [newDecFromStr, notMinus, split, firstSize, String.ofList_append, String.append_assoc]
    split <;> rfl
  · simp [newDecFromStr, split, firstSize, String.ofList_append, String.append_assoc]
    split <;> rfl

/-- The sign `NewDecFromStr` takes off is not the only one: `SetString` reads a
sign of its own. So a doubled minus, a plus, and a minus before a plus are all
accepted, and the doubled minus reads as positive. -/
theorem newDecFromStr_second_sign (digits : List Char) (nonempty : digits ≠ [])
    (allDigits : ∀ c ∈ digits, c.isDigit = true) :
    newDecFromStr ("--" ++ String.ofList digits) = .ok ⟨digitsValue digits * 10 ^ precision⟩ ∧
      newDecFromStr ("+" ++ String.ofList digits) = .ok ⟨digitsValue digits * 10 ^ precision⟩ ∧
      newDecFromStr ("-+" ++ String.ofList digits) = .ok ⟨-(digitsValue digits * 10 ^ precision)⟩ := by
  have noPoint : ∀ sign : Char, sign ≠ '.' → '.' ∉ sign :: digits := by
    intro sign notPoint member
    rcases List.mem_cons.mp member with same | inDigits
    · exact notPoint same.symm
    · exact absurd (allDigits '.' inDigits) (by decide)
  have padded : ∀ c ∈ digits ++ List.replicate precision '0', c.isDigit = true := by
    intro c member
    rcases List.mem_append.mp member with inDigits | inZeros
    · exact allDigits c inDigits
    · rw [List.eq_of_mem_replicate inZeros]; rfl
  have paddedNonempty : digits ++ List.replicate precision '0' ≠ [] := by simp [nonempty]
  -- what `SetString` reads after the one sign `NewDecFromStr` removes
  have minus := setString_neg_of_digits _ paddedNonempty padded
  have plus := setString_plus_of_digits _ paddedNonempty padded
  rw [digitsValue_append_zeros] at minus plus
  refine ⟨?_, ?_, ?_⟩
  · have text : "--" ++ String.ofList digits = (if true then "-" else "") ++ String.ofList ('-' :: digits) := by
      simp [String.ofList_cons, ← String.append_assoc]
    rw [text, newDecFromStr_of_whole true _ (by simp) (noPoint '-' (by decide)) (by simp),
      List.cons_append, minus]
    simp
  · have text : "+" ++ String.ofList digits = (if false then "-" else "") ++ String.ofList ('+' :: digits) := by
      simp [String.ofList_cons, ← String.append_assoc]
    rw [text, newDecFromStr_of_whole false _ (by simp) (noPoint '+' (by decide)) (by simp),
      List.cons_append, plus]
    simp
  · have text : "-+" ++ String.ofList digits = (if true then "-" else "") ++ String.ofList ('+' :: digits) := by
      simp [String.ofList_cons, ← String.append_assoc]
    rw [text, newDecFromStr_of_whole true _ (by simp) (noPoint '+' (by decide)) (by simp),
      List.cons_append, plus]
    simp

theorem newDecFromStr_second_sign_five :
    ['5'] ≠ [] ∧ (∀ c ∈ ['5'], c.isDigit = true) ∧
      newDecFromStr "--5" = .ok ⟨5 * 10 ^ precision⟩ ∧ newDecFromStr "+5" = .ok ⟨5 * 10 ^ precision⟩ ∧
      newDecFromStr "-+5" = .ok ⟨-(5 * 10 ^ precision)⟩ :=
  ⟨by simp, by simp, newDecFromStr_second_sign ['5'] (by simp) (by simp)⟩

/-- JSON carries `String`, so it inherits its round trip. -/
theorem unmarshalJSON_marshalJSON (jsonMarshalString : String → String)
    (jsonUnmarshalString : String → Except String String)
    (jsonRoundTrip : ∀ s, jsonUnmarshalString (jsonMarshalString s) = .ok s) (d : Dec) :
    unmarshalJSON jsonUnmarshalString (marshalJSON jsonMarshalString d) = .ok d := by
  simp only [unmarshalJSON, marshalJSON, jsonRoundTrip]
  rw [ok_bind, newDecFromStr_string]
  rfl

/-- Every decimal survives `String` and `NewDecFromStr`, and so the JSON codec. -/
theorem string_round_trip (jsonMarshalString : String → String)
    (jsonUnmarshalString : String → Except String String)
    (jsonRoundTrip : ∀ s, jsonUnmarshalString (jsonMarshalString s) = .ok s) (d : Dec) :
    newDecFromStr (string d) = .ok d ∧
      unmarshalJSON jsonUnmarshalString (marshalJSON jsonMarshalString d) = .ok d :=
  ⟨newDecFromStr_string d, unmarshalJSON_marshalJSON jsonMarshalString jsonUnmarshalString jsonRoundTrip d⟩

theorem string_round_trip_negative_fraction :
    newDecFromStr (string ⟨-5⟩) = .ok ⟨-5⟩ ∧
      unmarshalJSON unquoteJSON (marshalJSON quoteJSON ⟨-5⟩) = .ok ⟨-5⟩ :=
  string_round_trip quoteJSON unquoteJSON unquoteJSON_quoteJSON ⟨-5⟩

end CoreSdk.Types.Dec
