import CoreSdk.Crypto.HdPath

/-!
# BIP 44 parameters

`NewParamsFromPath` (`common/crypto/hd/hdpath.go`) reads the five fields of a
BIP 44 path `m / purpose' / coinType' / account' / change / addressIndex`,
absolute or relative, and `BIP44Params.String` prints the canonical absolute
form. `hardenedInt` drops one trailing apostrophe and parses the rest as a
`uint32`; the checks on the apostrophes and on the change bit come after.

The printed form of parameters with purpose 44 is read back as them, and a
path that is accepted prints to a path that is read back as the same
parameters and derives the same key (`newParamsFromPath_string`): each
accepted field steps `DerivePrivateKeyForPath` with the index `hardenedInt`
reads and the hardening `isHardened` sees.
-/

namespace CoreSdk.Crypto.Hd

open Go Go.Strings Go.Strconv

set_option autoImplicit false

/-- `BIP44Params`. -/
structure BIP44Params where
  purpose : UInt32
  coinType : UInt32
  account : UInt32
  change : Bool
  addressIndex : UInt32
  deriving DecidableEq, Repr

section Params

variable (whiteSpace : Char → Bool) (quote : String → String)

/-- `hardenedInt`. -/
def hardenedInt (field : String) : Result UInt32 :=
  let field := trimSuffix field "\x27"
  let (i, err) := parseUint field 32
  match err with
  | some err => fail (err.error quote)
  | none => pure i.toUInt32

/-- `isHardened`. -/
def isHardened (field : String) : Bool := hasSuffix field "\x27"

/-- `NewParamsFromPath`; the five fields are `spl[0]` to `spl[4]`. -/
def newParamsFromPath (path : String) : Result BIP44Params := do
  let spl := split path '/'
  let first ← index spl 0
  -- Handle absolute or relative paths
  let spl ← (
    if first = path then fail ("path " ++ path ++ " doesn\x27t contain \x27/\x27 separators")
    else if trimSpace whiteSpace first = "" then
      fail ("ambiguous path " ++ path ++
        ": use \x27m/\x27 prefix for absolute paths, or no leading \x27/\x27 for relative ones")
    else if trimSpace whiteSpace first = "m" then pure (spl.drop 1)
    else pure spl : Result (List String))
  match spl with
  | [purposeField, coinTypeField, accountField, changeField, addressIndexField] =>
    -- Check items can be parsed
    let purpose ← hardenedInt quote purposeField
    let coinType ← hardenedInt quote coinTypeField
    let account ← hardenedInt quote accountField
    let change ← hardenedInt quote changeField
    let addressIdx ← hardenedInt quote addressIndexField
    -- Confirm valid values
    if purposeField ≠ "44\x27" then fail ("first field in path must be 44\x27, got " ++ purposeField)
    else if !isHardened coinTypeField || !isHardened accountField then
      fail ("second and third field in path must be hardened (ie. contain the suffix \x27, got " ++
        coinTypeField ++ " and " ++ accountField)
    else if isHardened changeField || isHardened addressIndexField then
      fail ("fourth and fifth field in path must not be hardened (ie. not contain the suffix \x27, got " ++
        changeField ++ " and " ++ addressIndexField)
    else if !(change = 0 || change = 1) then fail "change field can only be 0 or 1"
    else pure ⟨purpose, coinType, account, change > 0, addressIdx⟩
  | spl => fail ("path length is wrong. Expected 5, got " ++ toString spl.length)

end Params

/-- `BIP44Params.String`: `m/%d'/%d'/%d'/%s/%d`. -/
def BIP44Params.string (p : BIP44Params) : String :=
  let changeStr := if p.change then "1" else "0"
  "m/" ++ toString p.purpose ++ "\x27/" ++ toString p.coinType ++ "\x27/" ++ toString p.account ++ "\x27/" ++
    changeStr ++ "/" ++ toString p.addressIndex

section Spec

variable (hmacSHA512 : List UInt8 → List UInt8 → List UInt8) (serializeCompressed : List UInt8 → List UInt8)
  (whiteSpace : Char → Bool) (quote : String → String)

theorem hardenedInt_eq_ok {field : String} {v : UInt32} :
    hardenedInt quote field = .ok v ↔ ∃ i, parseUint (trimSuffix field "\x27") 32 = (i, none) ∧ i.toUInt32 = v := by
  rw [hardenedInt]
  rcases parse : parseUint (trimSuffix field "\x27") 32 with ⟨i, _ | err⟩
  · simp [pure_eq_ok]
  · simp

/-- A field `hardenedInt` accepts is the step `DerivePrivateKeyForPath` takes
with that index, hardened exactly when `isHardened` says so. -/
theorem deriveStep_of_hardenedInt (keys : Bytes32 × Bytes32) {field : String} {v : UInt32}
    (parsed : hardenedInt quote field = .ok v) :
    deriveStep hmacSHA512 serializeCompressed quote keys field =
      .ok (derivePrivateKey hmacSHA512 serializeCompressed keys.1 keys.2 v (isHardened field)) := by
  obtain ⟨data, chainCode⟩ := keys
  -- the empty field does not parse
  have nonempty : field.toList ≠ [] := by
    intro empty
    rw [String.toList_eq_nil_iff] at empty
    subst empty
    cases parsed
  obtain ⟨front, last, chars⟩ := (List.eq_nil_or_concat field.toList).resolve_left nonempty
  rw [List.concat_eq_append] at chars
  have fieldOf : field = String.ofList (front ++ [last]) := by
    rw [← chars, String.ofList_toList]
  subst fieldOf
  have lastAt : ((String.ofList (front ++ [last])).length : Int) - 1 = (front.length : Nat) := by
    rw [String.length_ofList, List.length_append, List.length_singleton]
    omega
  have sliced := sliceFrom_append front [last]
  rw [deriveStep]
  simp only [String.toList_ofList, lastAt, sliced, ok_bind]
  by_cases mark : last = '\x27'
  · -- a hardened field: both drop the apostrophe before parsing
    subst mark
    have trimmed := trimSuffix_append_singleton front '\x27'
    have hardened : isHardened (String.ofList (front ++ ['\x27'])) = true := by
      rw [isHardened, show "\x27" = String.singleton '\x27' from rfl, hasSuffix_append_singleton, decide_eq_true_iff]
    obtain ⟨i, parse, rfl⟩ := (hardenedInt_eq_ok quote).mp parsed
    rw [show "\x27" = String.singleton '\x27' from rfl, trimmed] at parse
    rw [hardened, if_pos rfl, List.dropLast_concat]
    simp only [parse]
    rfl
  · have kept : trimSuffix (String.ofList (front ++ [last])) "\x27" = String.ofList (front ++ [last]) := by
      rw [trimSuffix, show "\x27" = String.singleton '\x27' from rfl, hasSuffix_append_singleton,
        decide_eq_false mark, if_neg Bool.false_ne_true]
    have plain : isHardened (String.ofList (front ++ [last])) = false := by
      rw [isHardened, show "\x27" = String.singleton '\x27' from rfl, hasSuffix_append_singleton, decide_eq_false mark]
    have notMark : String.ofList [last] ≠ "\x27" := fun same => mark (by
      have := congrArg String.toList same
      simpa using this)
    obtain ⟨i, parse, rfl⟩ := (hardenedInt_eq_ok quote).mp parsed
    rw [kept] at parse
    rw [plain, if_neg notMark]
    simp only [parse, decide_eq_false notMark]
    rfl

/-- The fields `BIP44Params.String` prints after `m`. -/
def BIP44Params.fields (p : BIP44Params) : List String :=
  [toString p.purpose ++ "\x27", toString p.coinType ++ "\x27", toString p.account ++ "\x27",
    if p.change then "1" else "0", toString p.addressIndex]

theorem BIP44Params.string_eq_join (p : BIP44Params) : p.string = join ("m" :: p.fields) (String.singleton '/') := by
  rw [← String.toList_inj]
  simp [BIP44Params.string, BIP44Params.fields, join, List.intercalate_cons_cons]

/-- The last decimal digit is not an apostrophe, so `TrimSuffix` keeps a
number and `isHardened` does not hold of it. -/
theorem hasSuffix_toDigits (v : Nat) : hasSuffix (String.ofList (Nat.toDigits 10 v)) "\x27" = false := by
  obtain ⟨front, last, digits⟩ := (List.eq_nil_or_concat (Nat.toDigits 10 v)).resolve_left Nat.toDigits_ne_nil
  rw [List.concat_eq_append] at digits
  have digit := Go.Big.isDigit_of_mem_toDigits (show last ∈ Nat.toDigits 10 v by rw [digits]; simp)
  have notMark : last ≠ '\x27' := fun same => by rw [same] at digit; exact absurd digit (by decide)
  rw [digits, show "\x27" = String.singleton '\x27' from rfl, hasSuffix_append_singleton, decide_eq_false notMark]

theorem toString_eq_ofList (n : UInt32) : toString n = String.ofList (Nat.toDigits 10 n.toNat) := rfl

theorem toString_append_mark (n : UInt32) :
    toString n ++ "\x27" = String.ofList (Nat.toDigits 10 n.toNat ++ ['\x27']) := by
  rw [← String.toList_inj]
  simp only [String.toList_append, toString_eq_ofList, String.toList_ofList]
  rfl

theorem slash_not_mem_toString (n : UInt32) : '/' ∉ (toString n).toList := by
  rw [toString_eq_ofList, String.toList_ofList]
  intro member
  exact absurd (Go.Big.isDigit_of_mem_toDigits member) (by decide)

theorem isHardened_toString (n : UInt32) : isHardened (toString n) = false := by
  rw [isHardened, toString_eq_ofList, hasSuffix_toDigits]

theorem hardenedInt_toString (n : UInt32) : hardenedInt quote (toString n) = .ok n := by
  rw [hardenedInt_eq_ok, toString_eq_ofList, trimSuffix, hasSuffix_toDigits, if_neg Bool.false_ne_true]
  exact ⟨n.toNat, parseUint_toDigits n.toNat 32 (by decide) n.toNat_lt, UInt32.ofNat_toNat⟩

theorem hardenedInt_toString_hardened (n : UInt32) : hardenedInt quote (toString n ++ "\x27") = .ok n := by
  rw [hardenedInt_eq_ok, toString_append_mark, show "\x27" = String.singleton '\x27' from rfl, trimSuffix_append_singleton]
  exact ⟨n.toNat, parseUint_toDigits n.toNat 32 (by decide) n.toNat_lt, UInt32.ofNat_toNat⟩

theorem isHardened_toString_hardened (n : UInt32) : isHardened (toString n ++ "\x27") = true := by
  rw [isHardened, toString_append_mark, show "\x27" = String.singleton '\x27' from rfl, hasSuffix_append_singleton,
    decide_eq_true_iff]

theorem split_string (p : BIP44Params) : split p.string '/' = "m" :: p.fields := by
  rw [BIP44Params.string_eq_join]
  apply split_join _ _ (List.cons_ne_nil _ _)
  -- digits, apostrophes and `m`: no field holds a `/`
  have digitsOnly := slash_not_mem_toString
  cases change : p.change <;> simp [BIP44Params.fields, change, digitsOnly]

theorem trimSpace_m : trimSpace whiteSpace "m" = "m" :=
  trimSpace_of_printable whiteSpace "m" (by simp [show "m".toList = ['m'] from rfl])

/-- The printed form of parameters with purpose 44 is read back as them. -/
theorem newParamsFromPath_string_of_purpose (p : BIP44Params) (purpose : p.purpose = 44) :
    newParamsFromPath whiteSpace quote p.string = .ok p := by
  have pieces := split_string p
  have shorter : "m" ≠ p.string := fun same => by
    have := length_lt_of_split (show split p.string '/' = "m" :: _ :: _ from pieces)
    rw [← same] at this
    exact lt_irrefl _ this
  have firstAt : index ("m" :: p.fields) 0 = .ok "m" := rfl
  have notEmpty : trimSpace whiteSpace "m" ≠ "" := by
    rw [trimSpace_m]
    decide
  rw [newParamsFromPath]
  simp only [pieces, firstAt, ok_bind, if_neg shorter, if_neg notEmpty, if_pos (trimSpace_m whiteSpace),
    List.drop_one, List.tail_cons, pure_eq_ok]
  simp only [BIP44Params.fields, hardenedInt_toString_hardened, hardenedInt_toString, ok_bind,
    isHardened_toString_hardened]
  obtain ⟨purposeOf, coinType, account, change, addressIndex⟩ := p
  dsimp only at purpose ⊢
  subst purpose
  have fortyFour : toString (44 : UInt32) ++ "\x27" = "44\x27" := rfl
  -- the change field is `0` or `1`, read as itself
  cases change
  · simp only [Bool.false_eq_true, reduceIte, show "0" = toString (0 : UInt32) from rfl, hardenedInt_toString,
      ok_bind, fortyFour, isHardened_toString]
    rfl
  · simp only [reduceIte, show "1" = toString (1 : UInt32) from rfl, hardenedInt_toString, ok_bind, fortyFour,
      isHardened_toString]
    rfl

/-- What `NewParamsFromPath` has checked of a path it accepts: the components
after a leading `m` are `44'` and four fields, each read by `hardenedInt` into
the parameters, with the apostrophes where they belong and a change bit. -/
theorem newParamsFromPath_eq_ok {path : String} {p : BIP44Params}
    (accepted : newParamsFromPath whiteSpace quote path = .ok p) :
    ∃ first second rest coinTypeField accountField changeField addressIndexField change,
      split path '/' = first :: second :: rest ∧
      (if trimSpace whiteSpace first = "m" then second :: rest else first :: second :: rest) =
        ["44\x27", coinTypeField, accountField, changeField, addressIndexField] ∧
      hardenedInt quote coinTypeField = .ok p.coinType ∧ isHardened coinTypeField = true ∧
      hardenedInt quote accountField = .ok p.account ∧ isHardened accountField = true ∧
      hardenedInt quote changeField = .ok change ∧ isHardened changeField = false ∧
      hardenedInt quote addressIndexField = .ok p.addressIndex ∧ isHardened addressIndexField = false ∧
      p.purpose = 44 ∧ (change = 0 ∨ change = 1) ∧ p.change = decide (change > 0) := by
  obtain ⟨first, rest, pieces⟩ := List.exists_cons_of_ne_nil (split_ne_nil path '/')
  have firstAt : index (first :: rest) 0 = .ok first := rfl
  rw [newParamsFromPath] at accepted
  simp only [pieces, firstAt, ok_bind] at accepted
  obtain ⟨spl, chosen, checked⟩ := bind_eq_ok.mp accepted
  -- a path with no separator is rejected, so there is a second piece
  have shorter : first ≠ path := fun same => by
    rw [if_pos same] at chosen
    exact fail_ne_ok _ _ chosen
  obtain ⟨second, rest, rfl⟩ : ∃ second later, rest = second :: later := by
    cases rest with
    | nil => exact absurd (eq_of_split_singleton pieces) shorter
    | cons second later => exact ⟨second, later, rfl⟩
  have parts : (if trimSpace whiteSpace first = "m" then second :: rest else first :: second :: rest) = spl := by
    rw [if_neg shorter] at chosen
    split_ifs at chosen with empty isM
    · exact absurd chosen (fail_ne_ok _ _)
    · rw [if_pos isM]
      cases chosen
      rfl
    · rw [if_neg isM]
      cases chosen
      rfl
  match spl, parts, checked with
  | [], _, wrong | [_], _, wrong | [_, _], _, wrong | [_, _, _], _, wrong
  | [_, _, _, _], _, wrong | _ :: _ :: _ :: _ :: _ :: _ :: _, _, wrong =>
    -- any other number of components is rejected
    exact absurd wrong (fail_ne_ok _ _)
  | [purposeField, coinTypeField, accountField, changeField, addressIndexField], parts, accepted =>
  obtain ⟨purpose, purposeOk, accepted⟩ := bind_eq_ok.mp accepted
  obtain ⟨coinType, coinTypeOk, accepted⟩ := bind_eq_ok.mp accepted
  obtain ⟨account, accountOk, accepted⟩ := bind_eq_ok.mp accepted
  obtain ⟨change, changeOk, accepted⟩ := bind_eq_ok.mp accepted
  obtain ⟨addressIdx, addressIdxOk, accepted⟩ := bind_eq_ok.mp accepted
  split_ifs at accepted with fortyFour hardened plain changeBit
  -- each failed check is an error
  iterate 4 exact absurd accepted (fail_ne_ok _ _)
  cases accepted
  rw [not_not] at fortyFour
  subst fortyFour
  simp only [Bool.or_eq_true, Bool.not_eq_true', not_or, Bool.not_eq_false, Bool.not_eq_true] at hardened plain
  simp only [Bool.not_eq_true', Bool.or_eq_false_iff, decide_eq_false_iff_not, not_and_or, not_not] at changeBit
  have readPurpose : hardenedInt quote "44\x27" = .ok 44 := hardenedInt_toString_hardened quote 44
  rw [readPurpose] at purposeOk
  cases purposeOk
  exact ⟨first, second, rest, coinTypeField, accountField, changeField, addressIndexField, change, pieces, parts,
    coinTypeOk, hardened.1, accountOk, hardened.2, changeOk, plain.1, addressIdxOk, plain.2, rfl, changeBit, rfl⟩

theorem newParamsFromPath_string :
    (∀ p : BIP44Params, p.purpose = 44 → newParamsFromPath whiteSpace quote p.string = .ok p) ∧
    ∀ (path : String) (p : BIP44Params), newParamsFromPath whiteSpace quote path = .ok p →
      newParamsFromPath whiteSpace quote p.string = .ok p ∧
      ∀ privKeyBytes chainCode,
        derivePrivateKeyForPath hmacSHA512 serializeCompressed whiteSpace quote privKeyBytes chainCode path =
          derivePrivateKeyForPath hmacSHA512 serializeCompressed whiteSpace quote privKeyBytes chainCode p.string := by
  refine ⟨newParamsFromPath_string_of_purpose whiteSpace quote, fun path p accepted => ?_⟩
  obtain ⟨first, second, rest, coinTypeField, accountField, changeField, addressIndexField, change, pieces, parts,
    coinTypeOk, coinTypeHardened, accountOk, accountHardened, changeOk, changePlain, addressIndexOk,
    addressIndexPlain, purpose, changeBit, changeOf⟩ := newParamsFromPath_eq_ok whiteSpace quote accepted
  refine ⟨newParamsFromPath_string_of_purpose whiteSpace quote p purpose, fun privKeyBytes chainCode => ?_⟩
  -- both paths loop over five fields that step with the same indices and hardening
  have canonical : split p.string '/' = "m" :: (toString p.purpose ++ "\x27") :: (p.fields.drop 1) :=
    split_string p
  rw [derivePrivateKeyForPath_of_pieces hmacSHA512 serializeCompressed whiteSpace quote privKeyBytes chainCode pieces,
    parts, derivePrivateKeyForPath_of_pieces hmacSHA512 serializeCompressed whiteSpace quote privKeyBytes chainCode
      canonical, if_pos (trimSpace_m whiteSpace)]
  have readPurpose : hardenedInt quote "44\x27" = .ok 44 := hardenedInt_toString_hardened quote 44
  have purposeHardened : isHardened "44\x27" = true := isHardened_toString_hardened 44
  have changeText : (if p.change then "1" else "0") = toString change := by
    rcases changeBit with rfl | rfl
    · rw [changeOf]
      rfl
    · rw [changeOf]
      rfl
  simp only [BIP44Params.fields, List.drop_one, List.tail_cons, changeText, purpose, List.foldlM_cons,
    List.foldlM_nil, deriveStep_of_hardenedInt hmacSHA512 serializeCompressed quote _ readPurpose,
    deriveStep_of_hardenedInt hmacSHA512 serializeCompressed quote _ coinTypeOk,
    deriveStep_of_hardenedInt hmacSHA512 serializeCompressed quote _ accountOk,
    deriveStep_of_hardenedInt hmacSHA512 serializeCompressed quote _ changeOk,
    deriveStep_of_hardenedInt hmacSHA512 serializeCompressed quote _ addressIndexOk,
    deriveStep_of_hardenedInt hmacSHA512 serializeCompressed quote _ (hardenedInt_toString_hardened quote _),
    deriveStep_of_hardenedInt hmacSHA512 serializeCompressed quote _ (hardenedInt_toString quote _),
    isHardened_toString_hardened, isHardened_toString, purposeHardened, coinTypeHardened, accountHardened,
    changePlain, addressIndexPlain, ok_bind]

/-- A path with a space before its `m` and a leading zero in its coin type reads
as the Cosmos parameters, and derives the key their canonical path derives. -/
theorem newParamsFromPath_string_cosmos :
    newParamsFromPath Char.isWhitespace (fun s => "\x22" ++ s ++ "\x22") " m/44\x27/0118\x27/0\x27/1/7" =
        .ok ⟨44, 118, 0, true, 7⟩ ∧
      newParamsFromPath Char.isWhitespace (fun s => "\x22" ++ s ++ "\x22") (BIP44Params.string ⟨44, 118, 0, true, 7⟩) =
        .ok ⟨44, 118, 0, true, 7⟩ ∧
      ∀ privKeyBytes chainCode,
        derivePrivateKeyForPath (fun key data => key ++ data) id Char.isWhitespace (fun s => "\x22" ++ s ++ "\x22")
            privKeyBytes chainCode " m/44\x27/0118\x27/0\x27/1/7" =
          derivePrivateKeyForPath (fun key data => key ++ data) id Char.isWhitespace (fun s => "\x22" ++ s ++ "\x22")
            privKeyBytes chainCode (BIP44Params.string ⟨44, 118, 0, true, 7⟩) := by
  have accepted : newParamsFromPath Char.isWhitespace (fun s => "\x22" ++ s ++ "\x22")
      " m/44\x27/0118\x27/0\x27/1/7" = .ok ⟨44, 118, 0, true, 7⟩ := by decide
  exact ⟨accepted, (newParamsFromPath_string (fun key data => key ++ data) id Char.isWhitespace
    (fun s => "\x22" ++ s ++ "\x22")).2 _ _ accepted⟩

end Spec

end CoreSdk.Crypto.Hd
