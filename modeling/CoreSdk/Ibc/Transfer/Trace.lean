import CoreSdk.Go.Strings
import CoreSdk.Types.Coin

/-!
# ICS-20 denomination traces

`ParseDenomTrace` (`ibc/transfer/trace.go`) splits a denomination on every `/`:
the last piece is the base denomination and the pieces before it, joined again,
are the path. `GetFullDenomPath` prints a trace back as its path, `/` and its
base. `ValidateDenom` admits `/` in a base denomination, and the parser cannot
tell such a `/` from the one before the base: a trace comes back from its full
path exactly when its base has no `/` (`parseDenomTrace_getFullDenomPath`).

`Hash` is SHA-256 of the full path and `IBCDenom` prints it as `HexBytes`; both
come from other libraries, the parameters `sha256` and `hexBytesString`.
-/

namespace CoreSdk.Ibc.Transfer

open Go.Strings

set_option autoImplicit false

variable (sha256 : List UInt8 → List UInt8) (hexBytesString : List UInt8 → String)

/-- `DenomTrace`. -/
structure DenomTrace where
  path : String
  baseDenom : String
  deriving DecidableEq, Repr

/-- `DenomPrefix`. -/
def denomPrefix : String := "ibc"

/-- `ParseDenomTrace`. -/
def parseDenomTrace (rawDenom : String) : DenomTrace :=
  let denomSplit := split rawDenom '/'
  if denomSplit.head (split_ne_nil rawDenom '/') = rawDenom then ⟨"", rawDenom⟩
  else ⟨join denomSplit.dropLast "/", denomSplit.getLast (split_ne_nil rawDenom '/')⟩

namespace DenomTrace

/-- `GetPrefix`. -/
def getPrefix (dt : DenomTrace) : String := dt.path ++ "/"

/-- `GetFullDenomPath`. -/
def getFullDenomPath (dt : DenomTrace) : String :=
  if dt.path = "" then dt.baseDenom else dt.getPrefix ++ dt.baseDenom

/-- `Hash`: SHA-256 of the bytes of the full path. -/
def hash (dt : DenomTrace) : List UInt8 := sha256 dt.getFullDenomPath.toUTF8.toList

/-- `IBCDenom`. -/
def ibcDenom (dt : DenomTrace) : String :=
  if dt.path ≠ "" then denomPrefix ++ "/" ++ hexBytesString (dt.hash sha256) else dt.baseDenom

end DenomTrace

theorem parseDenomTrace_of_not_mem {rawDenom : String} (noSlash : '/' ∉ rawDenom.toList) :
    parseDenomTrace rawDenom = ⟨"", rawDenom⟩ := by
  simp only [parseDenomTrace, split_of_not_mem noSlash, List.head_cons, reduceIte]

theorem parseDenomTrace_of_mem {rawDenom : String} (slash : '/' ∈ rawDenom.toList) :
    parseDenomTrace rawDenom = ⟨join (split rawDenom '/').dropLast "/",
      (split rawDenom '/').getLast (split_ne_nil rawDenom '/')⟩ := by
  -- the first piece has no `/`, so it is not the whole text
  have first : (split rawDenom '/').head (split_ne_nil rawDenom '/') ≠ rawDenom := by
    intro same
    have noSlash := not_mem_of_mem_split (List.head_mem (split_ne_nil rawDenom '/'))
    rw [same] at noSlash
    exact noSlash slash
  simp only [parseDenomTrace, if_neg first]

/-- The base denomination of a parsed trace never holds a `/`. -/
theorem baseDenom_parseDenomTrace (rawDenom : String) : '/' ∉ (parseDenomTrace rawDenom).baseDenom.toList := by
  by_cases slash : '/' ∈ rawDenom.toList
  · rw [parseDenomTrace_of_mem slash]
    exact not_mem_of_mem_split (List.getLast_mem _)
  · rw [parseDenomTrace_of_not_mem slash]
    exact slash

theorem parseDenomTrace_getFullDenomPath_eq_iff (dt : DenomTrace) :
    parseDenomTrace dt.getFullDenomPath = dt ↔ '/' ∉ dt.baseDenom.toList := by
  constructor
  · intro roundTrip
    have noSlash := baseDenom_parseDenomTrace dt.getFullDenomPath
    rwa [roundTrip] at noSlash
  · intro noSlash
    obtain ⟨path, baseDenom⟩ := dt
    by_cases empty : path = ""
    · -- no trace: the full path is the base, a single piece
      subst empty
      rw [DenomTrace.getFullDenomPath, if_pos rfl, parseDenomTrace_of_not_mem noSlash]
    · -- the pieces of the path, then the base
      have full : (⟨path, baseDenom⟩ : DenomTrace).getFullDenomPath = path ++ String.singleton '/' ++ baseDenom := by
        rw [DenomTrace.getFullDenomPath, if_neg empty, DenomTrace.getPrefix]
        rfl
      have pieces : split (path ++ String.singleton '/' ++ baseDenom) '/' = split path '/' ++ [baseDenom] := by
        rw [split_append_sep, split_of_not_mem noSlash]
      have slash : '/' ∈ (path ++ String.singleton '/' ++ baseDenom).toList := by
        simp
      rw [full, parseDenomTrace_of_mem slash]
      simp only [pieces, List.dropLast_concat, List.getLast_concat, join_split path "/" '/' rfl]

/-- A text with a `/` past its first character parses to a trace with a path. -/
theorem path_parseDenomTrace_ne_empty {rawDenom : String} (slash : '/' ∈ rawDenom.toList)
    (start : rawDenom.toList.head? ≠ some '/') : (parseDenomTrace rawDenom).path ≠ "" := by
  rw [parseDenomTrace_of_mem slash]
  show join (split rawDenom '/').dropLast "/" ≠ ""
  rcases pieces : split rawDenom '/' with _ | ⟨first, _ | ⟨second, rest⟩⟩
  · exact absurd pieces (split_ne_nil rawDenom '/')
  · -- a single piece is the whole text, which holds a `/`
    have noSlash := not_mem_of_mem_split (show first ∈ split rawDenom '/' by rw [pieces]; exact List.mem_singleton_self _)
    rw [eq_of_split_singleton pieces] at noSlash
    exact absurd slash noSlash
  · -- the text and its path both start with the first piece, so that piece is empty
    intro empty
    simp only [List.dropLast_cons_cons] at empty
    obtain ⟨tail, pathChars⟩ := toList_join_cons first (second :: rest).dropLast "/"
    rw [empty, String.toList_empty] at pathChars
    have firstEmpty : first.toList = [] := (List.append_eq_nil_iff.mp pathChars.symm).1
    have whole := join_split rawDenom "/" '/' rfl
    rw [pieces] at whole
    have wholeChars := toList_join_cons_cons first second rest "/"
    rw [whole, firstEmpty] at wholeChars
    exact start (by rw [wholeChars]; rfl)

theorem parseDenomTrace_getFullDenomPath (dt : DenomTrace) :
    (parseDenomTrace dt.getFullDenomPath = dt ↔ '/' ∉ dt.baseDenom.toList) ∧
    (dt.path = "" → '/' ∈ dt.baseDenom.toList → dt.baseDenom.toList.head? ≠ some '/' →
      dt.ibcDenom sha256 hexBytesString = dt.baseDenom ∧
      ∃ hash, (parseDenomTrace dt.getFullDenomPath).ibcDenom sha256 hexBytesString = denomPrefix ++ "/" ++ hash) := by
  refine ⟨parseDenomTrace_getFullDenomPath_eq_iff dt, fun empty slash start => ⟨?_, ?_⟩⟩
  · rw [DenomTrace.ibcDenom, if_neg (not_not.mpr empty)]
  · -- the full path is the base, which parses to a trace with a path
    rw [DenomTrace.getFullDenomPath, if_pos empty, DenomTrace.ibcDenom,
      if_pos (path_parseDenomTrace_ne_empty slash start)]
    exact ⟨_, rfl⟩

/-- The failing case: the base denomination `gamm/pool/1`, valid and without a
trace, comes back as the trace `gamm/pool` of the base `1`. -/
theorem parseDenomTrace_getFullDenomPath_pool :
    Types.validateDenom "gamm/pool/1" = .ok () ∧
      parseDenomTrace (DenomTrace.getFullDenomPath ⟨"", "gamm/pool/1"⟩) ≠ ⟨"", "gamm/pool/1"⟩ ∧
      parseDenomTrace (DenomTrace.getFullDenomPath ⟨"", "gamm/pool/1"⟩) = ⟨"gamm/pool", "1"⟩ :=
  ⟨by decide, ((parseDenomTrace_getFullDenomPath (fun _ => []) (fun _ => "") ⟨"", "gamm/pool/1"⟩).1.not.mpr
    (by decide)), by decide⟩

end CoreSdk.Ibc.Transfer
