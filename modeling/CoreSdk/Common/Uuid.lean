import CoreSdk.Go.Hex

/-!
# UUIDs and their text

A `UUID` (`common/uuid/uuid.go`) is sixteen bytes. `String` writes them as 32
lowercase hex digits in groups of 8, 4, 4, 4 and 12, separated by dashes.
`UnmarshalText` (`common/uuid/codec.go`) picks a decoder by the length of the
text: 32 digits (hash-like), the canonical 36 bytes, those 36 between braces,
or either after `urn:uuid:`. The digits may be of either case.

What `UnmarshalText` accepts is exactly those five layouts of 32 digits that
spell the UUID it returns, whatever the receiver held before
(`unmarshalText_eq_ok_iff`). In particular the text `String` writes reads back
as the UUID (`uuid_text_round_trip`). The comment of `decodeBraced` also names
the hash-like form between braces. That text has 34 bytes, and `UnmarshalText`
refuses every text of that length before `decodeBraced` is reached.

A Go string here is its bytes. On an error Go leaves in the receiver the bytes
decoded so far. No caller reads them (`Must` panics, and `FromStringOrNil`
returns `Nil`), so the model returns the error alone.
-/

namespace CoreSdk.Common.Uuid

open Go

set_option autoImplicit false

/-- `Size`. -/
def size : Nat := 16

/-- `UUID`, a `[Size]byte`. -/
@[ext] structure UUID where
  bytes : List UInt8
  length_bytes : bytes.length = size
  deriving DecidableEq

namespace UUID

/-- `copy(u[offset:], src)`: the bytes of `src` that fit, written from `offset`. -/
def copyAt (u : UUID) (offset : Nat) (src : List UInt8) : UUID where
  bytes := u.bytes.take offset ++ src.take (size - offset) ++ u.bytes.drop (offset + min src.length (size - offset))
  length_bytes := by
    have sized := u.length_bytes
    simp only [List.length_append, List.length_take, List.length_drop, sized, size]
    omega

/-- `u[i]`. -/
def byteAt (u : UUID) (i : Fin 16) : UInt8 :=
  u.bytes.get ⟨i, by rw [u.length_bytes]; exact i.isLt⟩

/-- `u[i] = b`. -/
def setByte (u : UUID) (i : Nat) (b : UInt8) : UUID :=
  ⟨u.bytes.set i b, by rw [List.length_set]; exact u.length_bytes⟩

end UUID

/-- `Nil`, the UUID of sixteen zero bytes. -/
def nil : UUID := ⟨List.replicate size 0, List.length_replicate⟩

-- the versions `V1` to `V5`, the layout variants and the DCE domains
def v1 : UInt8 := 1
def v2 : UInt8 := 2
def v3 : UInt8 := 3
def v4 : UInt8 := 4
def v5 : UInt8 := 5
def variantNCS : UInt8 := 0
def variantRFC4122 : UInt8 := 1
def variantMicrosoft : UInt8 := 2
def domainPerson : UInt8 := 0
def domainGroup : UInt8 := 1
def domainOrg : UInt8 := 2

/-- `urnPrefix`, the bytes of `urn:uuid:`. -/
def urnPrefix : List UInt8 := [117, 114, 110, 58, 117, 117, 105, 100, 58]

/-- `byteGroups`. -/
def byteGroups : List Nat := [8, 4, 4, 4, 12]

namespace UUID

/-- `Equal`. -/
def equal (u1 u2 : UUID) : Bool := u1.bytes == u2.bytes

/-- `SetVersion`. -/
def setVersion (u : UUID) (v : UInt8) : UUID := u.setByte 6 ((u.byteAt 6 &&& (0x0f : UInt8)) ||| (v <<< 4))

/-- `SetVariant`; a value past the four variants sets `VariantFuture`. -/
def setVariant (u : UUID) (v : UInt8) : UUID :=
  if v = variantNCS then u.setByte 8 ((u.byteAt 8 &&& ((0xff : UInt8) >>> 1)) ||| ((0x00 : UInt8) <<< 7))
  else if v = variantRFC4122 then u.setByte 8 ((u.byteAt 8 &&& ((0xff : UInt8) >>> 2)) ||| ((0x02 : UInt8) <<< 6))
  else if v = variantMicrosoft then u.setByte 8 ((u.byteAt 8 &&& ((0xff : UInt8) >>> 3)) ||| ((0x06 : UInt8) <<< 5))
  else u.setByte 8 ((u.byteAt 8 &&& ((0xff : UInt8) >>> 3)) ||| ((0x07 : UInt8) <<< 5))

/-- `String`: `xxxxxxxx-xxxx-xxxx-xxxx-xxxxxxxxxxxx`. -/
def string (u : UUID) : List UInt8 :=
  Hex.encode (u.bytes.extract 0 4) ++ [45] ++ Hex.encode (u.bytes.extract 4 6) ++ [45] ++
    Hex.encode (u.bytes.extract 6 8) ++ [45] ++ Hex.encode (u.bytes.extract 8 10) ++ [45] ++
    Hex.encode (u.bytes.drop 10)

/-- `MarshalText`. -/
def marshalText (u : UUID) : List UInt8 := u.string

/-- `MarshalBinary`. -/
def marshalBinary (u : UUID) : List UInt8 := u.bytes

end UUID

/-- The errors of the decoders, with what they print. -/
inductive UuidError where
  /-- `uuid: incorrect UUID length: %s` -/
  | incorrectLength (text : List UInt8)
  /-- `uuid: incorrect UUID format %s` -/
  | incorrectFormat (text : List UInt8)
  /-- `uuid: incorrect UUID format: %s`, of a text that does not start with `urn:uuid:` -/
  | incorrectUrnFormat (text : List UInt8)
  /-- `uuid: incorrrect UUID length: %s`, of what is left inside braces or after the prefix -/
  | incorrectPlainLength (text : List UInt8)
  /-- an error of `hex.Decode` -/
  | hex (err : Hex.HexError)
  /-- `uuid: UUID must be exactly 16 bytes long, got %d bytes` -/
  | incorrectBinaryLength (length : Nat)
  deriving DecidableEq, Repr

/-- `hex.Decode`, its error wrapped. -/
def decodeHex (src : List UInt8) : Except UuidError (List UInt8) :=
  match Hex.decode src with
  | .ok bytes => .ok bytes
  | .error err => .error (.hex err)

/-- The loop of `decodeCanonical` over `byteGroups`: the byte before each group
but the first skipped, and the group's digits decoded. -/
def canonicalGroups : List Nat → Bool → List UInt8 → Except UuidError (List UInt8)
  | [], _, _ => .ok []
  | byteGroup :: groups, later, src =>
    let src := if later then src.drop 1 else src
    match decodeHex (src.take byteGroup) with
    | .error err => .error err
    | .ok decoded => (canonicalGroups groups true (src.drop byteGroup)).map (decoded ++ ·)

namespace UUID

/-- `decodeCanonical`, of a text of 36 bytes. -/
def decodeCanonical (u : UUID) (t : List UInt8) : Except UuidError UUID :=
  if t[8]? ≠ some 45 ∨ t[13]? ≠ some 45 ∨ t[18]? ≠ some 45 ∨ t[23]? ≠ some 45 then .error (.incorrectFormat t)
  else (canonicalGroups byteGroups false t).map (u.copyAt 0)

/-- `decodeHashLike`, of a text of 32 bytes. -/
def decodeHashLike (u : UUID) (t : List UInt8) : Except UuidError UUID :=
  (decodeHex t).map (u.copyAt 0)

/-- `decodePlain`. -/
def decodePlain (u : UUID) (t : List UInt8) : Except UuidError UUID :=
  if t.length = 32 then u.decodeHashLike t
  else if t.length = 36 then u.decodeCanonical t
  else .error (.incorrectPlainLength t)

/-- `decodeBraced`, of a text of 38 bytes. -/
def decodeBraced (u : UUID) (t : List UInt8) : Except UuidError UUID :=
  if t[0]? ≠ some 123 ∨ t[t.length - 1]? ≠ some 125 then .error (.incorrectFormat t)
  else u.decodePlain ((t.drop 1).take (t.length - 2))

/-- `decodeURN`, of a text of 41 or 45 bytes. -/
def decodeURN (u : UUID) (t : List UInt8) : Except UuidError UUID :=
  if t.take 9 != urnPrefix then .error (.incorrectUrnFormat t)
  else u.decodePlain (t.drop 9)

/-- `UnmarshalText`, into the receiver `u`. -/
def unmarshalText (u : UUID) (text : List UInt8) : Except UuidError UUID :=
  if text.length = 32 then u.decodeHashLike text
  else if text.length = 36 then u.decodeCanonical text
  else if text.length = 38 then u.decodeBraced text
  else if text.length = 41 ∨ text.length = 45 then u.decodeURN text
  else .error (.incorrectLength text)

/-- `UnmarshalBinary`. -/
def unmarshalBinary (u : UUID) (data : List UInt8) : Except UuidError UUID :=
  if data.length ≠ size then .error (.incorrectBinaryLength data.length)
  else .ok (u.copyAt 0 data)

end UUID

/-- `FromString`. -/
def fromString (input : List UInt8) : Except UuidError UUID := nil.unmarshalText input

/-- `FromStringOrNil`. -/
def fromStringOrNil (input : List UInt8) : UUID :=
  match fromString input with
  | .ok u => u
  | .error _ => nil

/-- `FromBytes`. -/
def fromBytes (input : List UInt8) : Except UuidError UUID := nil.unmarshalBinary input

/-- `FromBytesOrNil`. -/
def fromBytesOrNil (input : List UInt8) : UUID :=
  match fromBytes input with
  | .ok u => u
  | .error _ => nil

/-! ## The layouts of 32 digits -/

/-- The canonical layout of 32 digits: a dash after the 8th, 12th, 16th and 20th. -/
def dashed (h : List UInt8) : List UInt8 :=
  h.take 8 ++ 45 :: ((h.drop 8).take 4 ++ 45 :: ((h.drop 12).take 4 ++ 45 :: ((h.drop 16).take 4 ++ 45 :: h.drop 20)))

/-- The five layouts of 32 digits that `UnmarshalText` reads: hash-like, canonical,
canonical between braces, and either after `urn:uuid:`. -/
def layouts (h : List UInt8) : List (List UInt8) :=
  [h, dashed h, 123 :: (dashed h ++ [125]), urnPrefix ++ h, urnPrefix ++ dashed h]

theorem exists_append_of_le {α : Type} (t : List α) (n : Nat) (inside : n ≤ t.length) :
    ∃ front rest, t = front ++ rest ∧ front.length = n :=
  ⟨t.take n, t.drop n, (List.take_append_drop n t).symm, List.length_take_of_le inside⟩

/-- A text of 36 bytes, cut into its five groups and the four bytes between them. -/
theorem exists_parts {t : List UInt8} (sized : t.length = 36) :
    ∃ (a b c d e : List UInt8) (d1 d2 d3 d4 : UInt8),
      a.length = 8 ∧ b.length = 4 ∧ c.length = 4 ∧ d.length = 4 ∧ e.length = 12 ∧
        t = a ++ d1 :: (b ++ d2 :: (c ++ d3 :: (d ++ d4 :: e))) := by
  obtain ⟨a, rest, rfl, la⟩ := exists_append_of_le t 8 (by omega)
  rw [List.length_append, la] at sized
  -- each time a group is cut off, the byte after it heads what is left
  obtain _ | ⟨d1, rest⟩ := rest
  · simp at sized
  obtain ⟨b, rest, rfl, lb⟩ := exists_append_of_le rest 4 (by simp only [List.length_cons] at sized; omega)
  simp only [List.length_cons, List.length_append, lb] at sized
  obtain _ | ⟨d2, rest⟩ := rest
  · simp at sized
  obtain ⟨c, rest, rfl, lc⟩ := exists_append_of_le rest 4 (by simp only [List.length_cons] at sized; omega)
  simp only [List.length_cons, List.length_append, lc] at sized
  obtain _ | ⟨d3, rest⟩ := rest
  · simp at sized
  obtain ⟨d, rest, rfl, ld⟩ := exists_append_of_le rest 4 (by simp only [List.length_cons] at sized; omega)
  simp only [List.length_cons, List.length_append, ld] at sized
  obtain _ | ⟨d4, e⟩ := rest
  · simp at sized
  simp only [List.length_cons] at sized
  exact ⟨a, b, c, d, e, d1, d2, d3, d4, la, lb, lc, ld, by omega, rfl⟩

theorem decodeHex_append {front : List UInt8} (back : List UInt8) (even : front.length % 2 = 0) :
    decodeHex (front ++ back) =
      match decodeHex front with
      | .error err => .error err
      | .ok decoded => (decodeHex back).map (decoded ++ ·) := by
  unfold decodeHex
  rw [Hex.decode_append back front even]
  cases Hex.decode front with
  | error err => rfl
  | ok decoded => cases Hex.decode back <;> rfl

theorem canonicalGroups_skip (groups : List Nat) (x : UInt8) (rest : List UInt8) :
    canonicalGroups groups true (x :: rest) = canonicalGroups groups false rest := by
  cases groups <;> rfl

theorem canonicalGroups_cons_of_length {g : Nat} {groups : List Nat} {piece rest : List UInt8}
    (lp : piece.length = g) :
    canonicalGroups (g :: groups) false (piece ++ rest) =
      match decodeHex piece with
      | .error err => .error err
      | .ok decoded => (canonicalGroups groups true rest).map (decoded ++ ·) := by
  simp only [canonicalGroups, Bool.false_eq_true, if_false, List.take_left' lp, List.drop_left' lp]

theorem canonicalGroups_last {g : Nat} {e : List UInt8} (le : e.length = g) :
    canonicalGroups [g] false e = decodeHex e := by
  simp only [canonicalGroups, Bool.false_eq_true, if_false, List.take_of_length_le (Nat.le_of_eq le)]
  cases decodeHex e with
  | error err => rfl
  | ok decoded => exact congrArg Except.ok (List.append_nil decoded)

section Parts

variable {a b c d e : List UInt8} (la : a.length = 8) (lb : b.length = 4) (lc : c.length = 4)
  (ld : d.length = 4)
include la lb lc ld

theorem dashes_of_parts (d1 d2 d3 d4 : UInt8) :
    (a ++ d1 :: (b ++ d2 :: (c ++ d3 :: (d ++ d4 :: e))))[8]? = some d1 ∧
      (a ++ d1 :: (b ++ d2 :: (c ++ d3 :: (d ++ d4 :: e))))[13]? = some d2 ∧
      (a ++ d1 :: (b ++ d2 :: (c ++ d3 :: (d ++ d4 :: e))))[18]? = some d3 ∧
      (a ++ d1 :: (b ++ d2 :: (c ++ d3 :: (d ++ d4 :: e))))[23]? = some d4 := by
  simp [List.getElem?_append_right, la, lb, lc, ld]

theorem dashed_parts : dashed (a ++ (b ++ (c ++ (d ++ e)))) = a ++ 45 :: (b ++ 45 :: (c ++ 45 :: (d ++ 45 :: e))) := by
  simp [dashed, List.drop_append, List.drop_eq_nil_of_le, la, lb, lc, ld]

theorem canonicalGroups_parts (le : e.length = 12) (d1 d2 d3 d4 : UInt8) :
    canonicalGroups byteGroups false (a ++ d1 :: (b ++ d2 :: (c ++ d3 :: (d ++ d4 :: e)))) =
      decodeHex (a ++ (b ++ (c ++ (d ++ e)))) := by
  -- group by group, the loop reads what decoding the digits together reads
  rw [byteGroups, canonicalGroups_cons_of_length la, canonicalGroups_skip, canonicalGroups_cons_of_length lb,
    canonicalGroups_skip, canonicalGroups_cons_of_length lc, canonicalGroups_skip,
    canonicalGroups_cons_of_length ld, canonicalGroups_skip, canonicalGroups_last le,
    decodeHex_append _ (by omega : a.length % 2 = 0), decodeHex_append _ (by omega : b.length % 2 = 0),
    decodeHex_append _ (by omega : c.length % 2 = 0), decodeHex_append _ (by omega : d.length % 2 = 0)]

theorem decodeCanonical_parts (u0 : UUID) (le : e.length = 12) (d1 d2 d3 d4 : UInt8) :
    u0.decodeCanonical (a ++ d1 :: (b ++ d2 :: (c ++ d3 :: (d ++ d4 :: e)))) =
      if d1 ≠ 45 ∨ d2 ≠ 45 ∨ d3 ≠ 45 ∨ d4 ≠ 45 then
        .error (.incorrectFormat (a ++ d1 :: (b ++ d2 :: (c ++ d3 :: (d ++ d4 :: e)))))
      else (decodeHex (a ++ (b ++ (c ++ (d ++ e))))).map (u0.copyAt 0) := by
  obtain ⟨at8, at13, at18, at23⟩ := dashes_of_parts la lb lc ld d1 d2 d3 d4
  rw [UUID.decodeCanonical, at8, at13, at18, at23, canonicalGroups_parts la lb lc ld le]
  simp only [ne_eq, Option.some.injEq]

end Parts

/-- A text cut into four groups of the given lengths and what is left. -/
theorem exists_groups {α : Type} {t : List α} {n1 n2 n3 n4 : Nat} (inside : n1 + n2 + n3 + n4 ≤ t.length) :
    ∃ a b c d e : List α, a.length = n1 ∧ b.length = n2 ∧ c.length = n3 ∧ d.length = n4 ∧
      e.length = t.length - (n1 + n2 + n3 + n4) ∧ t = a ++ (b ++ (c ++ (d ++ e))) := by
  obtain ⟨a, rest, rfl, la⟩ := exists_append_of_le t n1 (by omega)
  simp only [List.length_append, la] at inside ⊢
  obtain ⟨b, rest, rfl, lb⟩ := exists_append_of_le rest n2 (by omega)
  simp only [List.length_append, lb] at inside ⊢
  obtain ⟨c, rest, rfl, lc⟩ := exists_append_of_le rest n3 (by omega)
  simp only [List.length_append, lc] at inside ⊢
  obtain ⟨d, e, rfl, ld⟩ := exists_append_of_le rest n4 (by omega)
  simp only [List.length_append, ld] at inside ⊢
  exact ⟨a, b, c, d, e, la, lb, lc, ld, by omega, rfl⟩

theorem length_dashed {h : List UInt8} (sized : h.length = 32) : (dashed h).length = 36 := by
  simp only [dashed, List.length_append, List.length_cons, List.length_take, List.length_drop, sized]
  omega

theorem copyAt_zero_of_length (u : UUID) {src : List UInt8} (sized : src.length = size) :
    (u.copyAt 0 src).bytes = src := by
  simp [UUID.copyAt, sized, u.length_bytes, List.take_of_length_le]

/-- The digits of a UUID's bytes are 32. -/
theorem length_of_decode_eq_bytes {h : List UInt8} {u : UUID} (decoded : Hex.decode h = .ok u.bytes) :
    h.length = 32 := by
  rw [Hex.length_of_decode decoded, u.length_bytes, size]

/-- What 32 digits decode to, copied over the receiver, is the UUID of those bytes. -/
theorem map_copyAt_decodeHex_eq_ok_iff (u0 : UUID) {t : List UInt8} (sized : t.length = 32) (u : UUID) :
    (decodeHex t).map (u0.copyAt 0) = .ok u ↔ Hex.decode t = .ok u.bytes := by
  unfold decodeHex
  cases decoded : Hex.decode t with
  | error err => constructor <;> intro wrong <;> cases wrong
  | ok bytes =>
    have long : bytes.length = size := by
      rw [Hex.length_of_decode decoded] at sized
      rw [size]
      omega
    constructor
    · intro filled
      cases filled
      rw [copyAt_zero_of_length u0 long]
    · intro same
      cases same
      exact congrArg Except.ok (UUID.ext (copyAt_zero_of_length u0 long))

theorem decodeHashLike_eq_ok_iff (u0 : UUID) {t : List UInt8} (sized : t.length = 32) (u : UUID) :
    u0.decodeHashLike t = .ok u ↔ Hex.decode t = .ok u.bytes := by
  rw [UUID.decodeHashLike]
  exact map_copyAt_decodeHex_eq_ok_iff u0 sized u

theorem decodeCanonical_eq_ok_iff (u0 : UUID) {t : List UInt8} (sized : t.length = 36) (u : UUID) :
    u0.decodeCanonical t = .ok u ↔ ∃ h, Hex.decode h = .ok u.bytes ∧ t = dashed h := by
  constructor
  · intro decoded
    obtain ⟨a, b, c, d, e, d1, d2, d3, d4, la, lb, lc, ld, le, rfl⟩ := exists_parts sized
    rw [decodeCanonical_parts la lb lc ld u0 le] at decoded
    split_ifs at decoded with dashes
    -- past the check, the four bytes between the groups are dashes
    simp only [ne_eq, not_or, not_not] at dashes
    obtain ⟨rfl, rfl, rfl, rfl⟩ := dashes
    have digits : (a ++ (b ++ (c ++ (d ++ e)))).length = 32 := by simp [la, lb, lc, ld, le]
    exact ⟨_, (map_copyAt_decodeHex_eq_ok_iff u0 digits u).mp decoded, (dashed_parts la lb lc ld).symm⟩
  · rintro ⟨h, decoded, rfl⟩
    have digits := length_of_decode_eq_bytes decoded
    obtain ⟨a, b, c, d, e, la, lb, lc, ld, le, rfl⟩ := exists_groups (by omega : 8 + 4 + 4 + 4 ≤ h.length)
    rw [dashed_parts la lb lc ld, decodeCanonical_parts la lb lc ld u0 (by omega), if_neg (by simp)]
    exact (map_copyAt_decodeHex_eq_ok_iff u0 digits u).mpr decoded

/-- What `decodePlain` accepts: 32 digits, plain or with their dashes. -/
theorem decodePlain_eq_ok_iff (u0 : UUID) (t : List UInt8) (u : UUID) :
    u0.decodePlain t = .ok u ↔ ∃ h, Hex.decode h = .ok u.bytes ∧ (t = h ∨ t = dashed h) := by
  unfold UUID.decodePlain
  -- the length of the text decides the decoder, and each layout has its own length
  split_ifs with hashLike canonical
  · rw [decodeHashLike_eq_ok_iff u0 hashLike u]
    constructor
    · intro decoded
      exact ⟨t, decoded, .inl rfl⟩
    · rintro ⟨h, decoded, rfl | rfl⟩
      · exact decoded
      · rw [length_dashed (length_of_decode_eq_bytes decoded)] at hashLike
        cases hashLike
  · rw [decodeCanonical_eq_ok_iff u0 canonical u]
    constructor
    · rintro ⟨h, decoded, rfl⟩
      exact ⟨h, decoded, .inr rfl⟩
    · rintro ⟨h, decoded, rfl | rfl⟩
      · exact absurd (length_of_decode_eq_bytes decoded) hashLike
      · exact ⟨h, decoded, rfl⟩
  · constructor
    · intro wrong
      cases wrong
    · rintro ⟨h, decoded, rfl | rfl⟩
      · exact absurd (length_of_decode_eq_bytes decoded) hashLike
      · exact absurd (length_dashed (length_of_decode_eq_bytes decoded)) canonical

theorem decodeBraced_parts (u0 : UUID) (x : UInt8) (m : List UInt8) (y : UInt8) :
    u0.decodeBraced (x :: (m ++ [y])) =
      if x ≠ 123 ∨ y ≠ 125 then .error (.incorrectFormat (x :: (m ++ [y]))) else u0.decodePlain m := by
  have last : (x :: (m ++ [y]))[(x :: (m ++ [y])).length - 1]? = some y := by simp
  have inner : ((x :: (m ++ [y])).drop 1).take ((x :: (m ++ [y])).length - 2) = m := by simp
  rw [UUID.decodeBraced, last, inner]
  simp only [List.getElem?_cons_zero, ne_eq, Option.some.injEq]

theorem exists_braced {t : List UInt8} (sized : t.length = 38) :
    ∃ x m y, m.length = 36 ∧ t = x :: (m ++ [y]) := by
  obtain _ | ⟨x, rest⟩ := t
  · cases sized
  obtain ⟨m, last, rfl, lm⟩ := exists_append_of_le rest 36 (by simp only [List.length_cons] at sized; omega)
  simp only [List.length_cons, List.length_append, lm] at sized
  obtain _ | ⟨y, _ | ⟨z, more⟩⟩ := last
  · cases sized
  · exact ⟨x, m, y, lm, rfl⟩
  · simp only [List.length_cons] at sized
    omega

theorem braced_eq_braced_iff {x x' y y' : UInt8} {m m' : List UInt8} :
    x :: (m ++ [y]) = x' :: (m' ++ [y']) ↔ x = x' ∧ m = m' ∧ y = y' := by
  simp

theorem decodeBraced_eq_ok_iff (u0 : UUID) {t : List UInt8} (sized : t.length = 38) (u : UUID) :
    u0.decodeBraced t = .ok u ↔ ∃ h, Hex.decode h = .ok u.bytes ∧ t = 123 :: (dashed h ++ [125]) := by
  obtain ⟨x, m, y, lm, rfl⟩ := exists_braced sized
  rw [decodeBraced_parts]
  simp only [braced_eq_braced_iff]
  split_ifs with braces
  · constructor
    · intro wrong
      cases wrong
    · rintro ⟨h, _, rfl, _, rfl⟩
      simp at braces
  · simp only [ne_eq, not_or, not_not] at braces
    obtain ⟨rfl, rfl⟩ := braces
    simp only [decodePlain_eq_ok_iff, true_and, and_true]
    -- between the braces only the canonical 36 bytes fit
    constructor
    · rintro ⟨h, decoded, rfl | rfl⟩
      · exact absurd (length_of_decode_eq_bytes decoded) (by omega)
      · exact ⟨h, decoded, rfl⟩
    · rintro ⟨h, decoded, rfl⟩
      exact ⟨h, decoded, .inr rfl⟩

theorem decodeURN_parts (u0 : UUID) {p : List UInt8} (rest : List UInt8) (lp : p.length = 9) :
    u0.decodeURN (p ++ rest) =
      if p ≠ urnPrefix then .error (.incorrectUrnFormat (p ++ rest)) else u0.decodePlain rest := by
  rw [UUID.decodeURN, List.take_left' lp, List.drop_left' lp]
  simp only [bne_iff_ne, ne_eq]

theorem decodeURN_eq_ok_iff (u0 : UUID) {t : List UInt8} (sized : 9 ≤ t.length) (u : UUID) :
    u0.decodeURN t = .ok u ↔
      ∃ h, Hex.decode h = .ok u.bytes ∧ (t = urnPrefix ++ h ∨ t = urnPrefix ++ dashed h) := by
  obtain ⟨p, rest, rfl, lp⟩ := exists_append_of_le t 9 sized
  rw [decodeURN_parts u0 rest lp]
  split_ifs with wrongPrefix
  · constructor
    · intro wrong
      cases wrong
    · rintro ⟨h, _, same | same⟩ <;> exact absurd (List.append_inj same lp).1 wrongPrefix
  · simp only [ne_eq, not_not] at wrongPrefix
    subst wrongPrefix
    simp only [List.append_cancel_left_eq]
    exact decodePlain_eq_ok_iff u0 rest u

theorem mem_layouts {t h : List UInt8} :
    t ∈ layouts h ↔ t = h ∨ t = dashed h ∨ t = 123 :: (dashed h ++ [125]) ∨ t = urnPrefix ++ h ∨
      t = urnPrefix ++ dashed h := by
  simp [layouts]

/-- Every layout of the digits of a UUID's bytes reads back as that UUID. -/
theorem unmarshalText_of_layout (u0 : UUID) {h : List UInt8} {u : UUID} (decoded : Hex.decode h = .ok u.bytes)
    {t : List UInt8} (laid : t ∈ layouts h) : u0.unmarshalText t = .ok u := by
  have digits := length_of_decode_eq_bytes decoded
  have canonical := length_dashed digits
  unfold UUID.unmarshalText
  -- each layout has its own length, which picks its decoder
  rcases mem_layouts.mp laid with rfl | rfl | rfl | rfl | rfl
  · rw [if_pos digits]
    exact (decodeHashLike_eq_ok_iff u0 digits u).mpr decoded
  · rw [if_neg (by omega), if_pos canonical]
    exact (decodeCanonical_eq_ok_iff u0 canonical u).mpr ⟨h, decoded, rfl⟩
  · have braced : (123 :: (dashed h ++ [125])).length = 38 := by simp [canonical]
    rw [if_neg (by omega), if_neg (by omega), if_pos braced]
    exact (decodeBraced_eq_ok_iff u0 braced u).mpr ⟨h, decoded, rfl⟩
  · have urn : (urnPrefix ++ h).length = 41 := by simp [urnPrefix, digits]
    rw [if_neg (by omega), if_neg (by omega), if_neg (by omega), if_pos (.inl urn)]
    exact (decodeURN_eq_ok_iff u0 (by omega) u).mpr ⟨h, decoded, .inl rfl⟩
  · have urn : (urnPrefix ++ dashed h).length = 45 := by simp [urnPrefix, canonical]
    rw [if_neg (by omega), if_neg (by omega), if_neg (by omega), if_pos (.inr urn)]
    exact (decodeURN_eq_ok_iff u0 (by omega) u).mpr ⟨h, decoded, .inr rfl⟩

/-- A text `UnmarshalText` accepts is a layout of the digits of what it returns. -/
theorem exists_layout_of_unmarshalText {u0 : UUID} {t : List UInt8} {u : UUID}
    (decoded : u0.unmarshalText t = .ok u) : ∃ h, Hex.decode h = .ok u.bytes ∧ t ∈ layouts h := by
  unfold UUID.unmarshalText at decoded
  split_ifs at decoded with hashLike canonical braced urn
  · exact ⟨t, (decodeHashLike_eq_ok_iff u0 hashLike u).mp decoded, mem_layouts.mpr (.inl rfl)⟩
  · obtain ⟨h, digits, rfl⟩ := (decodeCanonical_eq_ok_iff u0 canonical u).mp decoded
    exact ⟨h, digits, mem_layouts.mpr (.inr (.inl rfl))⟩
  · obtain ⟨h, digits, rfl⟩ := (decodeBraced_eq_ok_iff u0 braced u).mp decoded
    exact ⟨h, digits, mem_layouts.mpr (.inr (.inr (.inl rfl)))⟩
  · obtain ⟨h, digits, rfl | rfl⟩ := (decodeURN_eq_ok_iff u0 (by omega) u).mp decoded
    · exact ⟨h, digits, mem_layouts.mpr (.inr (.inr (.inr (.inl rfl))))⟩
    · exact ⟨h, digits, mem_layouts.mpr (.inr (.inr (.inr (.inr rfl))))⟩

theorem unmarshalText_eq_ok_iff (u0 : UUID) (t : List UInt8) (u : UUID) :
    u0.unmarshalText t = .ok u ↔ ∃ h, Hex.decode h = .ok u.bytes ∧ t ∈ layouts h := by
  constructor
  · exact exists_layout_of_unmarshalText
  · rintro ⟨h, decoded, laid⟩
    exact unmarshalText_of_layout u0 decoded laid

theorem string_eq_dashed (u : UUID) : u.string = dashed (Hex.encode u.bytes) := by
  unfold UUID.string
  have sized : u.bytes.length = 16 := u.length_bytes
  generalize u.bytes = bytes at sized ⊢
  -- the groups of 4, 2, 2, 2 and 6 bytes are those of 8, 4, 4, 4 and 12 digits
  obtain ⟨a, b, c, d, e, la, lb, lc, ld, -, rfl⟩ := exists_groups (by omega : 4 + 2 + 2 + 2 ≤ bytes.length)
  have digits : ∀ {p : List UInt8} {n : Nat}, p.length = n → (Hex.encode p).length = 2 * n := by
    intro p n lp
    rw [Hex.length_encode, lp]
  rw [Hex.encode_append, Hex.encode_append, Hex.encode_append, Hex.encode_append,
    dashed_parts (digits la) (digits lb) (digits lc) (digits ld)]
  simp [List.extract_eq_take_drop, List.drop_append, List.drop_eq_nil_of_le, la, lb, lc, ld]

theorem uuid_text_round_trip (u0 u : UUID) :
    u0.unmarshalText u.marshalText = .ok u ∧ fromString u.string = .ok u ∧ fromBytes u.marshalBinary = .ok u := by
  have canonical : u.string ∈ layouts (Hex.encode u.bytes) := by
    rw [string_eq_dashed, mem_layouts]
    exact .inr (.inl rfl)
  refine ⟨unmarshalText_of_layout u0 (Hex.decode_encode u.bytes) canonical,
    unmarshalText_of_layout nil (Hex.decode_encode u.bytes) canonical, ?_⟩
  rw [fromBytes, UUID.unmarshalBinary, if_neg (by simp [UUID.marshalBinary, u.length_bytes])]
  exact congrArg Except.ok (UUID.ext (copyAt_zero_of_length nil u.length_bytes))

/-! ## Bytes, versions and variants -/

namespace UUID

theorem bytes_copyAt (u : UUID) (offset : Nat) (src : List UInt8) :
    (u.copyAt offset src).bytes =
      u.bytes.take offset ++ (src.take (size - offset) ++ u.bytes.drop (offset + min src.length (size - offset))) := by
  rw [← List.append_assoc]
  rfl

theorem bytes_setByte (u : UUID) (i : Nat) (b : UInt8) : (u.setByte i b).bytes = u.bytes.set i b := rfl

theorem take_copyAt (u : UUID) {offset : Nat} (inside : offset ≤ size) (src : List UInt8) :
    (u.copyAt offset src).bytes.take offset = u.bytes.take offset := by
  rw [bytes_copyAt]
  exact List.take_left' (by rw [List.length_take, u.length_bytes]; omega)

theorem drop_copyAt (u : UUID) {offset : Nat} (inside : offset ≤ size) (src : List UInt8) :
    (u.copyAt offset src).bytes.drop offset =
      src.take (size - offset) ++ u.bytes.drop (offset + min src.length (size - offset)) := by
  rw [bytes_copyAt]
  exact List.drop_left' (by rw [List.length_take, u.length_bytes]; omega)

theorem byteAt_eq_of_getElem? {u u' : UUID} {i : Fin 16} (same : u.bytes[i.val]? = u'.bytes[i.val]?) :
    u.byteAt i = u'.byteAt i := by
  have inside : i.val < u.bytes.length := by rw [u.length_bytes]; exact i.isLt
  have inside' : i.val < u'.bytes.length := by rw [u'.length_bytes]; exact i.isLt
  rw [List.getElem?_eq_getElem inside, List.getElem?_eq_getElem inside'] at same
  exact Option.some.inj same

/-- `copy(u[offset:], src)` leaves the bytes before `offset`. -/
theorem byteAt_copyAt_of_lt {u : UUID} {offset : Nat} {src : List UInt8} {i : Fin 16} (inside : offset ≤ size)
    (before : i.val < offset) : (u.copyAt offset src).byteAt i = u.byteAt i := by
  apply byteAt_eq_of_getElem?
  rw [← List.getElem?_take_of_lt before, take_copyAt u inside, List.getElem?_take_of_lt before]

theorem setVariant_rfc4122 (u : UUID) :
    u.setVariant variantRFC4122 = u.setByte 8 ((u.byteAt 8 &&& ((0xff : UInt8) >>> 2)) ||| ((0x02 : UInt8) <<< 6)) := by
  rw [setVariant, if_neg (by decide), if_pos rfl]

theorem byteAt_setByte_of_ne {u : UUID} {j : Nat} {b : UInt8} {i : Fin 16} (other : j ≠ i.val) :
    (u.setByte j b).byteAt i = u.byteAt i := by
  simp only [byteAt, setByte, List.get_eq_getElem, List.getElem_set, other, if_false]

end UUID

end CoreSdk.Common.Uuid
