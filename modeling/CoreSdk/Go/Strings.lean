import Mathlib.Data.String.Basic

/-!
# Text functions of Go's standard library

`strings.TrimSpace`, `strings.Split` with a one-character separator, and the
white-space predicates under them. A Go `string` is a Lean `String`: valid
UTF-8, read rune by rune, which is what these functions do on such text.

`unicode.IsSpace` is a table for runes past Latin-1, the parameter `whiteSpace`;
the Latin-1 part is spelled out, since every text of the models is ASCII there.
The lemmas say when trimming changes nothing and when splitting undoes a join.
-/

namespace Go.Strings

set_option autoImplicit false

/-- `unicode.IsSpace`: the Latin-1 white space, and the `White_Space` table
(`whiteSpace`) past it. -/
def isSpace (whiteSpace : Char → Bool) (r : Char) : Bool :=
  if r.toNat ≤ 0xFF then
    r = '\t' || r = '\n' || r = '\x0B' || r = '\x0C' || r = '\r' || r = ' ' || r.toNat = 0x85 ||
      r.toNat = 0xA0
  else whiteSpace r

/-- `strings.TrimSpace`: the text without the white space at either end. The
source scans ASCII bytes first and hands the rest to `TrimFunc` with
`unicode.IsSpace` at the first other byte; on ASCII the two predicates agree,
so both trim the same runes. -/
def trimSpace (whiteSpace : Char → Bool) (s : String) : String :=
  String.ofList ((s.toList.dropWhile (isSpace whiteSpace)).reverse.dropWhile (isSpace whiteSpace)).reverse

/-- `strings.Split(s, sep)` for a separator of one character: the pieces
between its occurrences, one piece for text without it. -/
def split (s : String) (sep : Char) : List String :=
  (s.toList.splitOn sep).map String.ofList

/-- `strings.Join`. -/
def join (elems : List String) (sep : String) : String :=
  String.ofList (sep.toList.intercalate (elems.map String.toList))

/-- `strings.HasSuffix`, on characters; for an ASCII suffix it agrees with the
byte comparison of the source. -/
def hasSuffix (s suffix : String) : Bool := suffix.toList.isSuffixOf s.toList

/-- `strings.TrimSuffix`. -/
def trimSuffix (s suffix : String) : String :=
  if hasSuffix s suffix then String.ofList (s.toList.take (s.length - suffix.length)) else s

variable (whiteSpace : Char → Bool)

/-- No printable ASCII character is white space. -/
theorem isSpace_of_printable (c : Char) (printable : 33 ≤ c.toNat ∧ c.toNat ≤ 126) :
    isSpace whiteSpace c = false := by
  rw [isSpace, if_pos (by omega)]
  -- compare code points
  simp only [← Char.toNat_inj, Bool.or_eq_false_iff, decide_eq_false_iff_not, Char.reduceToNat]
  omega

/-- Text that starts and ends with a character that is not white space is its
own trim. -/
theorem trimSpace_eq_self (s : String)
    (noLeading : ∀ c ∈ s.toList.head?, isSpace whiteSpace c = false)
    (noTrailing : ∀ c ∈ s.toList.getLast?, isSpace whiteSpace c = false) :
    trimSpace whiteSpace s = s := by
  unfold trimSpace
  cases chars : s.toList with
  | nil => simp [← String.toList_inj, chars]
  | cons first rest =>
      have keepFirst : (first :: rest).dropWhile (isSpace whiteSpace) = first :: rest := by
        simp [noLeading first (by simp [chars])]
      -- the reversed text starts with the last character
      obtain ⟨front, last, ends⟩ : ∃ front last, first :: rest = front ++ [last] :=
        ⟨_, _, (List.dropLast_append_getLast (List.cons_ne_nil first rest)).symm⟩
      have lastKept : isSpace whiteSpace last = false := noTrailing last (by simp [chars, ends])
      rw [keepFirst, ends, List.reverse_append, List.reverse_singleton, List.singleton_append,
        List.dropWhile_cons_of_neg (by simp [lastKept]), List.reverse_cons, List.reverse_reverse,
        ← ends, ← chars, String.ofList_toList]

/-- Printable ASCII text is its own trim. -/
theorem trimSpace_of_printable (s : String)
    (printable : ∀ c ∈ s.toList, 33 ≤ c.toNat ∧ c.toNat ≤ 126) : trimSpace whiteSpace s = s := by
  apply trimSpace_eq_self
  · intro c first
    exact isSpace_of_printable whiteSpace c (printable c (List.mem_of_mem_head? first))
  · intro c last
    exact isSpace_of_printable whiteSpace c (printable c (List.mem_of_getLast? last))

/-- Splitting on a separator undoes joining with it, when no piece holds it. -/
theorem split_intercalate (pieces : List String) (sep : Char) (nonempty : pieces ≠ [])
    (noSep : ∀ piece ∈ pieces, sep ∉ piece.toList) :
    split (String.ofList ([sep].intercalate (pieces.map String.toList))) sep = pieces := by
  have splitChars : ([sep].intercalate (pieces.map String.toList)).splitOn sep = pieces.map String.toList :=
    List.splitOn_intercalate sep (by simpa using noSep) (by simpa using nonempty)
  rw [split, String.toList_ofList, splitChars, List.map_map]
  conv => rhs; rw [← List.map_id pieces]
  exact List.map_congr_left fun piece _ => String.ofList_toList

theorem split_join (pieces : List String) (sep : Char) (nonempty : pieces ≠ [])
    (noSep : ∀ piece ∈ pieces, sep ∉ piece.toList) : split (join pieces (String.singleton sep)) sep = pieces := by
  rw [join, String.toList_singleton]
  exact split_intercalate pieces sep nonempty noSep

/-- A text that splits into two pieces or more is longer than its first piece. -/
theorem length_lt_of_split {s first second : String} {sep : Char} {rest : List String}
    (pieces : split s sep = first :: second :: rest) : first.length < s.length := by
  rw [split] at pieces
  obtain ⟨firstChars, tail, splitChars, firstOf, tailOf⟩ := List.map_eq_cons_iff.mp pieces
  obtain ⟨secondChars, later, tailChars, -, -⟩ := List.map_eq_cons_iff.mp tailOf
  have joined : [sep].intercalate (s.toList.splitOn sep) = s.toList := List.intercalate_splitOn sep
  rw [splitChars, tailChars, List.intercalate_cons_cons] at joined
  have lengths := congrArg List.length joined
  rw [List.length_append, List.length_append, List.length_singleton, String.length_toList] at lengths
  rw [← firstOf, String.length_ofList]
  omega

/-- A text that splits into one piece is that piece. -/
theorem eq_of_split_singleton {s first : String} {sep : Char} (pieces : split s sep = [first]) : first = s := by
  rw [split] at pieces
  obtain ⟨firstChars, tail, splitChars, firstOf, tailOf⟩ := List.map_eq_cons_iff.mp pieces
  rw [List.map_eq_nil_iff] at tailOf
  have joined : [sep].intercalate (s.toList.splitOn sep) = s.toList := List.intercalate_splitOn sep
  rw [splitChars, tailOf, List.intercalate_singleton] at joined
  rw [← firstOf, joined, String.ofList_toList]

theorem split_ne_nil (s : String) (sep : Char) : split s sep ≠ [] := by
  rw [split, Ne, List.map_eq_nil_iff]
  exact List.splitOn_ne_nil sep s.toList

theorem not_mem_of_mem_splitOn {α : Type} [DecidableEq α] {sep : α} :
    ∀ {xs piece : List α}, piece ∈ xs.splitOn sep → sep ∉ piece
  | [], piece, mem => by
    rw [List.splitOn_nil, List.mem_singleton] at mem
    rw [mem]
    exact List.not_mem_nil
  | x :: xs, piece, mem => by
    rw [List.splitOn, List.splitOnP_cons_eq_if_modifyHead] at mem
    split_ifs at mem with atSep
    · rcases List.mem_cons.mp mem with rfl | later
      · exact List.not_mem_nil
      · exact not_mem_of_mem_splitOn later
    · -- the first piece of the rest grows by `x`, which is not the separator
      obtain ⟨first, rest, pieces⟩ := List.exists_cons_of_ne_nil (List.splitOn_ne_nil sep xs)
      have firstOf : first ∈ xs.splitOn sep := by rw [pieces]; exact List.mem_cons_self
      rw [List.splitOn] at pieces
      rw [pieces, List.modifyHead_cons] at mem
      rcases List.mem_cons.mp mem with rfl | later
      · rw [List.mem_cons, not_or]
        exact ⟨fun same => atSep (by rw [same, beq_self_eq_true]), not_mem_of_mem_splitOn firstOf⟩
      · rw [← List.splitOn] at pieces
        exact not_mem_of_mem_splitOn (show piece ∈ xs.splitOn sep by rw [pieces]; exact List.mem_cons_of_mem _ later)

/-- No piece of a split holds the separator. -/
theorem not_mem_of_mem_split {s piece : String} {sep : Char} (mem : piece ∈ split s sep) : sep ∉ piece.toList := by
  obtain ⟨chars, charsOf, rfl⟩ := List.mem_map.mp mem
  rw [String.toList_ofList]
  exact not_mem_of_mem_splitOn charsOf

theorem split_of_not_mem {s : String} {sep : Char} (noSep : sep ∉ s.toList) : split s sep = [s] := by
  rw [split, List.splitOn_eq_singleton noSep, List.map_singleton, String.ofList_toList]

/-- The pieces of two texts joined by the separator are the pieces of each. -/
theorem split_append_sep (s t : String) (sep : Char) :
    split (s ++ String.singleton sep ++ t) sep = split s sep ++ split t sep := by
  simp only [split, String.toList_append, String.toList_singleton, List.append_assoc, List.singleton_append,
    List.splitOn_append_cons_self, List.map_append]

/-- Joining the pieces of a split with the separator gives the text back. -/
theorem join_split (s sepText : String) (sep : Char) (single : sepText.toList = [sep]) :
    join (split s sep) sepText = s := by
  rw [join, split, single, List.map_map]
  simp only [Function.comp_def, String.toList_ofList, List.map_id', List.intercalate_splitOn, String.ofList_toList]

theorem toList_join_cons_cons (first second : String) (rest : List String) (sep : String) :
    (join (first :: second :: rest) sep).toList = first.toList ++ sep.toList ++ (join (second :: rest) sep).toList := by
  rw [join, join, String.toList_ofList, String.toList_ofList, List.map_cons, List.map_cons,
    List.intercalate_cons_cons]

/-- A join starts with its first element. -/
theorem toList_join_cons (first : String) (rest : List String) (sep : String) :
    ∃ tail, (join (first :: rest) sep).toList = first.toList ++ tail := by
  cases rest with
  | nil => exact ⟨[], by simp [join]⟩
  | cons second rest => exact ⟨_, by rw [toList_join_cons_cons, List.append_assoc]⟩

theorem hasSuffix_append_singleton (front : List Char) (c d : Char) :
    hasSuffix (String.ofList (front ++ [c])) (String.singleton d) = decide (c = d) := by
  rw [hasSuffix, String.toList_ofList, String.toList_singleton, Bool.eq_iff_iff, List.isSuffixOf_iff_suffix,
    List.singleton_suffix_iff_getLast?_eq_some, List.getLast?_concat, Option.some.injEq, decide_eq_true_iff]

theorem trimSuffix_append_singleton (front : List Char) (c : Char) :
    trimSuffix (String.ofList (front ++ [c])) (String.singleton c) = String.ofList front := by
  have ends : hasSuffix (String.ofList (front ++ [c])) (String.singleton c) = true := by
    rw [hasSuffix_append_singleton, decide_eq_true_iff]
  rw [trimSuffix, if_pos ends, String.toList_ofList, String.length_ofList, String.length_singleton,
    List.length_append, List.length_singleton, Nat.add_sub_cancel, List.take_left' rfl]

end Go.Strings
