import CoreSdk.Common.Uuid
import CoreSdk.Go.Io
import CoreSdk.Go.Binary
import CoreSdk.Data.Clock

/-!
# The RFC 4122 generator

`rfc4122Generator` (`common/uuid/generator.go`) keeps the last time it read, a
clock sequence and a hardware address. `NewV1` lays out the time read, the
clock sequence and the address; `NewV2` writes the user or group id and the
domain over a version 1 UUID; `NewV3` and `NewV5` take the hash of a namespace
and a name; `NewV4` reads sixteen random bytes. Each sets its version and the
RFC 4122 variant.

The generator is a state machine here. A call is a step (`Call.step`). The
time `epochFunc` gives a call is part of the call, as the `UnixNano` it
reports, and `rand` is a reader with a finite supply of bytes. The storage
lock serialises the clock readings of concurrent calls, so a run is the order
in which they took the lock. The two `sync.Once` are flags that the first call
sets, whether or not its random read fails.

The clock sequence is a counter of `ClockSequence`: the code's `uint16` is the
counter modulo `2^16` (`Tracks`), and the layout of `NewV1` keeps the counter
modulo `2^14` and the time modulo `2^60`.
-/

namespace CoreSdk.Common.Uuid

open Go Go.Io ClockSequence

set_option autoImplicit false

/-- `epochStart`: 100-nanosecond intervals from the UUID epoch to the Unix epoch. -/
def epochStart : UInt64 := 122192928000000000

/-- `getEpoch`, at a time whose `UnixNano` is `now`. -/
def getEpoch (now : Int64) : UInt64 := epochStart + (now / 100).toUInt64

/-- `rfc4122Generator`. The flags say whether each `sync.Once` has run;
`hwAddrFunc` is what that function returns when the `Once` calls it. -/
structure Rfc4122Generator where
  clockSequenceOnce : Bool
  hardwareAddrOnce : Bool
  rand : List UInt8
  hwAddrFunc : Except String (List UInt8)
  lastTime : UInt64
  clockSequence : UInt16
  hardwareAddr : List UInt8
  length_hardwareAddr : hardwareAddr.length = 6

/-- `newRFC4122Generator`, over a reader and an address function. -/
def newRFC4122Generator (rand : List UInt8) (hwAddrFunc : Except String (List UInt8)) : Rfc4122Generator where
  clockSequenceOnce := false
  hardwareAddrOnce := false
  rand := rand
  hwAddrFunc := hwAddrFunc
  lastTime := 0
  clockSequence := 0
  hardwareAddr := List.replicate 6 0
  length_hardwareAddr := rfl

/-- `defaultHWAddrFunc`: the first address of six bytes or more among the interfaces. -/
def defaultHWAddrFunc (interfaces : Except String (List (List UInt8))) : Except String (List UInt8) :=
  match interfaces with
  | .error err => .error err
  | .ok ifaces =>
    match ifaces.find? fun hardwareAddr => 6 ≤ hardwareAddr.length with
    | some hardwareAddr => .ok hardwareAddr
    | none => .error "uuid: no HW address found"

namespace Rfc4122Generator

/-- `copy(g.hardwareAddr[:], src)`. -/
def copyHardwareAddr (g : Rfc4122Generator) (src : List UInt8) : Rfc4122Generator :=
  { g with
    hardwareAddr := copy g.hardwareAddr src
    length_hardwareAddr := by rw [length_copy, g.length_hardwareAddr] }

/-- `g.hardwareAddr[0] |= 0x01`. -/
def setMulticastBit (g : Rfc4122Generator) : Rfc4122Generator :=
  { g with
    hardwareAddr := g.hardwareAddr.set 0 (g.hardwareAddr.getD 0 0 ||| 0x01)
    length_hardwareAddr := by rw [List.length_set, g.length_hardwareAddr] }

/-- The body of `clockSequenceOnce.Do`: two random bytes for the clock sequence. -/
def readClockSequence (g : Rfc4122Generator) : Option ReadError × Rfc4122Generator :=
  match readFull g.rand 2 with
  | (_, some err, rest) => (some err, { g with rand := rest })
  | (buf, none, rest) => (none, { g with rand := rest, clockSequence := Binary.uint16 buf })

/-- What `getClockSequence` does under `storageMutex`, at the epoch `timeNow`:
the clock sequence goes up when the clock did not move forward. -/
def advanceClock (g : Rfc4122Generator) (timeNow : UInt64) : Rfc4122Generator :=
  { g with
    clockSequence := if timeNow ≤ g.lastTime then g.clockSequence + 1 else g.clockSequence
    lastTime := timeNow }

/-- `getClockSequence`: the epoch and the clock sequence. -/
def getClockSequence (g : Rfc4122Generator) (now : Int64) : Except ReadError (UInt64 × UInt16) × Rfc4122Generator :=
  let once : Option ReadError × Rfc4122Generator :=
    if g.clockSequenceOnce then (none, g)
    else ((readClockSequence g).1, { (readClockSequence g).2 with clockSequenceOnce := true })
  match once with
  | (some err, g) => (.error err, g)
  | (none, g) =>
    let timeNow := getEpoch now
    let g := g.advanceClock timeNow
    (.ok (timeNow, g.clockSequence), g)

/-- The body of `hardwareAddrOnce.Do`: the address `hwAddrFunc` gives, or else
six random bytes with the multicast bit set. A short read leaves the bytes it
read in the address. -/
def readHardwareAddr (g : Rfc4122Generator) : Option ReadError × Rfc4122Generator :=
  match g.hwAddrFunc with
  | .ok hwAddr => (none, g.copyHardwareAddr hwAddr)
  | .error _ =>
    match readFull g.rand g.hardwareAddr.length with
    | (buf, some err, rest) => (some err, { g with rand := rest }.copyHardwareAddr buf)
    | (buf, none, rest) => (none, ({ g with rand := rest }.copyHardwareAddr buf).setMulticastBit)

/-- `getHardwareAddr`. -/
def getHardwareAddr (g : Rfc4122Generator) : Except ReadError (List UInt8) × Rfc4122Generator :=
  let once : Option ReadError × Rfc4122Generator :=
    if g.hardwareAddrOnce then (none, g)
    else ((readHardwareAddr g).1, { (readHardwareAddr g).2 with hardwareAddrOnce := true })
  match once with
  | (some err, g) => (.error err, g)
  | (none, g) => (.ok g.hardwareAddr, g)

end Rfc4122Generator

/-- The four `PutUint` of `NewV1` into a zero UUID: bits 0 to 31 of the time, then
bits 32 to 47, then bits 48 to 63, then the clock sequence. -/
def putTime (timeNow : UInt64) (clockSeq : UInt16) : UUID :=
  let u := nil.copyAt 0 (Binary.putUint32 timeNow.toUInt32)
  let u := u.copyAt 4 (Binary.putUint16 (timeNow >>> 32).toUInt16)
  let u := u.copyAt 6 (Binary.putUint16 (timeNow >>> 48).toUInt16)
  u.copyAt 8 (Binary.putUint16 clockSeq)

/-- The UUID `NewV1` builds: the time and the clock sequence, the hardware
address from byte 10, the version and the variant. -/
def layoutV1 (timeNow : UInt64) (clockSeq : UInt16) (hardwareAddr : List UInt8) : UUID :=
  (((putTime timeNow clockSeq).copyAt 10 hardwareAddr).setVersion v1).setVariant variantRFC4122

namespace Rfc4122Generator

/-- `NewV1`. -/
def newV1 (g : Rfc4122Generator) (now : Int64) : Except ReadError UUID × Rfc4122Generator :=
  match g.getClockSequence now with
  | (.error err, g) => (.error err, g)
  | (.ok (timeNow, clockSeq), g) =>
    match g.getHardwareAddr with
    | (.error err, g) => (.error err, g)
    | (.ok hardwareAddr, g) => (.ok (layoutV1 timeNow clockSeq hardwareAddr), g)

/-- `NewV2`, with the `posixUID` and `posixGID` of the process. -/
def newV2 (posixUID posixGID : UInt32) (g : Rfc4122Generator) (domain : UInt8) (now : Int64) :
    Except ReadError UUID × Rfc4122Generator :=
  match g.newV1 now with
  | (.error err, g) => (.error err, g)
  | (.ok u, g) =>
    let u :=
      if domain = domainPerson then u.copyAt 0 (Binary.putUint32 posixUID)
      else if domain = domainGroup then u.copyAt 0 (Binary.putUint32 posixGID)
      else u
    let u := u.setByte 9 domain
    (.ok ((u.setVersion v2).setVariant variantRFC4122), g)

/-- `NewV4`. -/
def newV4 (g : Rfc4122Generator) : Except ReadError UUID × Rfc4122Generator :=
  match readFull g.rand size with
  | (_, some err, rest) => (.error err, { g with rand := rest })
  | (buf, none, rest) => (.ok (((nil.copyAt 0 buf).setVersion v4).setVariant variantRFC4122), { g with rand := rest })

end Rfc4122Generator

/-- `newFromHash`: the first sixteen bytes of the hash of the namespace and the name. -/
def newFromHash (hash : List UInt8 → List UInt8) (ns : UUID) (name : List UInt8) : UUID :=
  nil.copyAt 0 (hash (ns.bytes ++ name))

/-- `NewV3`, over MD5. -/
def newV3 (md5 : List UInt8 → List UInt8) (ns : UUID) (name : List UInt8) : UUID :=
  ((newFromHash md5 ns name).setVersion v3).setVariant variantRFC4122

/-- `NewV5`, over SHA-1. -/
def newV5 (sha1 : List UInt8 → List UInt8) (ns : UUID) (name : List UInt8) : UUID :=
  ((newFromHash sha1 ns name).setVersion v5).setVariant variantRFC4122

/-- What the calls take from outside the generator: the two hashes and the ids
of the process. -/
structure Environment where
  md5 : List UInt8 → List UInt8
  sha1 : List UInt8 → List UInt8
  posixUID : UInt32
  posixGID : UInt32

/-- The calls of `Generator`. -/
inductive Call where
  | newV1 (now : Int64)
  | newV2 (domain : UInt8) (now : Int64)
  | newV3 (ns : UUID) (name : List UInt8)
  | newV4
  | newV5 (ns : UUID) (name : List UInt8)

namespace Call

/-- A call on the generator. -/
def step (env : Environment) (g : Rfc4122Generator) : Call → Except ReadError UUID × Rfc4122Generator
  | .newV1 now => g.newV1 now
  | .newV2 domain now => g.newV2 env.posixUID env.posixGID domain now
  | .newV3 ns name => (.ok (Uuid.newV3 env.md5 ns name), g)
  | .newV4 => g.newV4
  | .newV5 ns name => (.ok (Uuid.newV5 env.sha1 ns name), g)

/-- The time a call reads the clock at, for the two that read it. -/
def clockTime : Call → Option Int64
  | .newV1 now => some now
  | .newV2 _ now => some now
  | _ => none

end Call

/-- A run of calls from `g`: what each returned, and the generator after. -/
def run (env : Environment) (g : Rfc4122Generator) : List Call → List (Except ReadError UUID) × Rfc4122Generator
  | [] => ([], g)
  | call :: calls =>
    let step := call.step env g
    let rest := run env step.2 calls
    (step.1 :: rest.1, rest.2)

/-- The UUID a `NewV1` call returned, if it did. -/
def v1Result : Call → Except ReadError UUID → Option UUID
  | .newV1 _, .ok u => some u
  | _, _ => none

/-- The UUIDs the `NewV1` calls of a run returned, in order. -/
def v1Results : List Call → List (Except ReadError UUID) → List UUID
  | call :: calls, result :: results => (v1Result call result).toList ++ v1Results calls results
  | _, _ => []

/-! ## One call -/

namespace Rfc4122Generator

/-- What the clock reads and writes: its `Once` flag, the last time and the clock sequence. -/
def clock (g : Rfc4122Generator) : Bool × UInt64 × UInt16 := (g.clockSequenceOnce, g.lastTime, g.clockSequence)

/-- Where the hardware address is kept: its `Once` flag and the address. -/
def hardware (g : Rfc4122Generator) : Bool × List UInt8 := (g.hardwareAddrOnce, g.hardwareAddr)

theorem clock_readHardwareAddr (g : Rfc4122Generator) : g.readHardwareAddr.2.clock = g.clock := by
  unfold readHardwareAddr
  split
  · rfl
  · split <;> rfl

theorem clock_getHardwareAddr (g : Rfc4122Generator) : g.getHardwareAddr.2.clock = g.clock := by
  unfold getHardwareAddr
  by_cases done : g.hardwareAddrOnce
  · rw [if_pos done]
  · rw [if_neg done]
    -- the flag is set over whatever the body of the `Once` did
    cases read : g.readHardwareAddr with
    | mk err g' =>
      have kept : g'.clock = g.clock := by rw [← clock_readHardwareAddr g, read]
      cases err <;> exact kept

theorem getHardwareAddr_of_done {g : Rfc4122Generator} (done : g.hardwareAddrOnce = true) :
    g.getHardwareAddr = (.ok g.hardwareAddr, g) := by
  rw [getHardwareAddr, if_pos done]

theorem hardwareAddrOnce_getHardwareAddr (g : Rfc4122Generator) : g.getHardwareAddr.2.hardwareAddrOnce = true := by
  unfold getHardwareAddr
  by_cases done : g.hardwareAddrOnce
  · rw [if_pos done]
    exact done
  · rw [if_neg done]
    cases g.readHardwareAddr.1 <;> rfl

/-- An address `getHardwareAddr` returns is the one it keeps. -/
theorem eq_of_getHardwareAddr {g : Rfc4122Generator} {hw : List UInt8} (returned : g.getHardwareAddr.1 = .ok hw) :
    hw = g.getHardwareAddr.2.hardwareAddr := by
  revert returned
  unfold getHardwareAddr
  split_ifs
  · intro returned
    cases returned
    rfl
  · cases g.readHardwareAddr.1 with
    | some err => intro returned; cases returned
    | none => intro returned; cases returned; rfl

theorem hardware_readClockSequence (g : Rfc4122Generator) :
    g.readClockSequence.2.hardware = g.hardware ∧ g.readClockSequence.2.lastTime = g.lastTime := by
  unfold readClockSequence
  split <;> exact ⟨rfl, rfl⟩

theorem hardware_getClockSequence (g : Rfc4122Generator) (now : Int64) :
    (g.getClockSequence now).2.hardware = g.hardware := by
  unfold getClockSequence
  by_cases done : g.clockSequenceOnce
  · rw [if_pos done]
    rfl
  · rw [if_neg done]
    have kept := (hardware_readClockSequence g).1
    cases g.readClockSequence.1 <;> exact kept

theorem getClockSequence_of_done {g : Rfc4122Generator} (done : g.clockSequenceOnce = true) (now : Int64) :
    g.getClockSequence now =
      (.ok (getEpoch now, (g.advanceClock (getEpoch now)).clockSequence), g.advanceClock (getEpoch now)) := by
  rw [getClockSequence, if_pos done]

/-- A first call whose random read succeeds goes on as if the `Once` had run before it. -/
theorem getClockSequence_of_read {g g' : Rfc4122Generator} (pending : g.clockSequenceOnce = false)
    (read : g.readClockSequence = (none, g')) (now : Int64) :
    g.getClockSequence now = { g' with clockSequenceOnce := true }.getClockSequence now := by
  rw [getClockSequence, if_neg (by rw [pending]; decide), read, getClockSequence_of_done rfl]

/-- A first call whose random read fails returns its error, and the `Once` is done. -/
theorem getClockSequence_of_read_error {g g' : Rfc4122Generator} {err : ReadError}
    (pending : g.clockSequenceOnce = false) (read : g.readClockSequence = (some err, g')) (now : Int64) :
    g.getClockSequence now = (.error err, { g' with clockSequenceOnce := true }) := by
  rw [getClockSequence, if_neg (by rw [pending]; decide), read]

/-- With the clock sequence drawn, `NewV1` advances the clock and lays out what it
read with the hardware address. -/
theorem newV1_of_done {g : Rfc4122Generator} (done : g.clockSequenceOnce = true) (now : Int64) :
    g.newV1 now =
      ((g.advanceClock (getEpoch now)).getHardwareAddr.1.map
          (layoutV1 (getEpoch now) (g.advanceClock (getEpoch now)).clockSequence),
        (g.advanceClock (getEpoch now)).getHardwareAddr.2) := by
  rw [newV1, getClockSequence_of_done done]
  dsimp only
  cases (g.advanceClock (getEpoch now)).getHardwareAddr with
  | mk result g' => cases result <;> rfl

theorem newV1_congr {g g' : Rfc4122Generator} {now : Int64} (same : g.getClockSequence now = g'.getClockSequence now) :
    g.newV1 now = g'.newV1 now := by
  rw [newV1, newV1, same]

theorem newV2_snd (posixUID posixGID : UInt32) (g : Rfc4122Generator) (domain : UInt8) (now : Int64) :
    (g.newV2 posixUID posixGID domain now).2 = (g.newV1 now).2 := by
  unfold newV2
  cases g.newV1 now with
  | mk result g' => cases result <;> rfl

theorem newV2_congr (posixUID posixGID : UInt32) {g g' : Rfc4122Generator} (domain : UInt8) {now : Int64}
    (same : g.newV1 now = g'.newV1 now) :
    g.newV2 posixUID posixGID domain now = g'.newV2 posixUID posixGID domain now := by
  rw [newV2, newV2, same]

theorem newV4_snd (g : Rfc4122Generator) : g.newV4.2.clock = g.clock ∧ g.newV4.2.hardware = g.hardware := by
  unfold newV4
  split <;> exact ⟨rfl, rfl⟩

theorem hardware_newV1 {g : Rfc4122Generator} (done : g.hardwareAddrOnce = true) (now : Int64) :
    (g.newV1 now).2.hardware = g.hardware := by
  unfold newV1
  have kept := hardware_getClockSequence g now
  cases clockRead : g.getClockSequence now with
  | mk result g' =>
    rw [clockRead] at kept
    cases result with
    | error err => exact kept
    | ok read =>
      -- the address was fixed before, so the `Once` does not run again
      have done' : g'.hardwareAddrOnce = true := by
        simp only [hardware, Prod.mk.injEq] at kept
        rw [kept.1, done]
      dsimp only
      rw [getHardwareAddr_of_done done']
      exact kept

end Rfc4122Generator

namespace Call

open Rfc4122Generator

variable (env : Environment) {g : Rfc4122Generator}

theorem clock_step_of_none {call : Call} (untimed : call.clockTime = none) : (call.step env g).2.clock = g.clock := by
  cases call with
  | newV1 now => cases untimed
  | newV2 domain now => cases untimed
  | newV3 ns name => rfl
  | newV4 => exact (newV4_snd g).1
  | newV5 ns name => rfl

theorem clock_step_of_some (done : g.clockSequenceOnce = true) {call : Call} {now : Int64}
    (timed : call.clockTime = some now) : (call.step env g).2.clock = (g.advanceClock (getEpoch now)).clock := by
  cases call with
  | newV1 now' =>
    cases timed
    rw [step, newV1_of_done done]
    exact clock_getHardwareAddr _
  | newV2 domain now' =>
    cases timed
    rw [step, newV2_snd, newV1_of_done done]
    exact clock_getHardwareAddr _
  | newV3 ns name => cases timed
  | newV4 => cases timed
  | newV5 ns name => cases timed

theorem hardware_step (done : g.hardwareAddrOnce = true) (call : Call) :
    (call.step env g).2.hardware = g.hardware := by
  cases call with
  | newV1 now => exact hardware_newV1 done now
  | newV2 domain now =>
    rw [step, newV2_snd]
    exact hardware_newV1 done now
  | newV3 ns name => rfl
  | newV4 => exact (newV4_snd g).2
  | newV5 ns name => rfl

/-- A UUID a `NewV1` call returns, with the clock sequence drawn: the layout of the
epoch read and the clock sequence after it, with the address the generator keeps. -/
theorem eq_layoutV1_of_v1Result (done : g.clockSequenceOnce = true) {call : Call} {u : UUID}
    (found : v1Result call (call.step env g).1 = some u) :
    ∃ now, call.clockTime = some now ∧
      u = layoutV1 (getEpoch now) (g.advanceClock (getEpoch now)).clockSequence (call.step env g).2.hardwareAddr ∧
        (call.step env g).2.hardwareAddrOnce = true := by
  cases call with
  | newV1 now =>
    refine ⟨now, rfl, ?_⟩
    rw [step, newV1_of_done done] at found ⊢
    cases read : (g.advanceClock (getEpoch now)).getHardwareAddr.1 with
    | error err =>
      rw [read] at found
      cases found
    | ok hw =>
      rw [read] at found
      cases found
      exact ⟨congrArg _ (eq_of_getHardwareAddr read), hardwareAddrOnce_getHardwareAddr _⟩
  | newV2 domain now => cases found
  | newV3 ns name => cases found
  | newV4 => cases found
  | newV5 ns name => cases found

end Call

/-- The generator's clock is at the counter's stamp `s`: the same last time, and
the clock sequence is the counter modulo `2^16`. -/
def Tracks (g : Rfc4122Generator) (s : Stamp) : Prop :=
  g.lastTime.toNat = s.time ∧ g.clockSequence.toNat = s.count % 2 ^ 16

namespace Tracks

variable {g g' : Rfc4122Generator} {s : Stamp}

theorem self (g : Rfc4122Generator) : Tracks g ⟨g.lastTime.toNat, g.clockSequence.toNat⟩ :=
  ⟨rfl, (Nat.mod_eq_of_lt g.clockSequence.toNat_lt).symm⟩

theorem of_clock (same : g'.clock = g.clock) (tracks : Tracks g s) : Tracks g' s := by
  simp only [Rfc4122Generator.clock, Prod.mk.injEq] at same
  rw [Tracks, same.2.1, same.2.2]
  exact tracks

/-- A clock reading of the code is a reading of the counter. -/
theorem advanceClock (tracks : Tracks g s) (timeNow : UInt64) :
    Tracks (g.advanceClock timeNow) (s.tick timeNow.toNat) := by
  obtain ⟨lastTime, clockSequence⟩ := tracks
  unfold Tracks Rfc4122Generator.advanceClock Stamp.tick
  dsimp only
  -- the code compares the times as `uint64`, which is comparing the numbers
  have compare : timeNow ≤ g.lastTime ↔ timeNow.toNat ≤ s.time := by rw [UInt64.le_iff_toNat_le, lastTime]
  by_cases stuck : timeNow ≤ g.lastTime
  · rw [if_pos stuck, if_pos (compare.mp stuck)]
    refine ⟨rfl, ?_⟩
    rw [UInt16.toNat_add, clockSequence, UInt16.toNat_one]
    omega
  · rw [if_neg stuck, if_neg (mt compare.mpr stuck)]
    exact ⟨rfl, clockSequence⟩

end Tracks

/-- The UUID `NewV1` lays out at the stamp `s` of the counter. -/
def stampUuid (hardwareAddr : List UInt8) (s : Stamp) : UUID :=
  layoutV1 s.time.toUInt64 s.count.toUInt16 hardwareAddr

theorem layoutV1_of_tracks {g : Rfc4122Generator} {s : Stamp} (tracks : Tracks g s) (hardwareAddr : List UInt8) :
    layoutV1 g.lastTime g.clockSequence hardwareAddr = stampUuid hardwareAddr s := by
  obtain ⟨lastTime, clockSequence⟩ := tracks
  have time : s.time.toUInt64 = g.lastTime := by
    rw [← lastTime, Nat.toUInt64_eq, UInt64.ofNat_toNat]
  have count : s.count.toUInt16 = g.clockSequence := by
    apply UInt16.toNat_inj.mp
    rw [clockSequence, Nat.toUInt16_eq, UInt16.toNat_ofNat']
  rw [stampUuid, time, count]

/-! ## The fields of a version 1 UUID -/

namespace UUID

/-- The 60-bit time of a version 1 UUID (RFC 4122, 4.1.4): `time_low`, `time_mid`
and `time_hi` without the version. -/
def time (u : UUID) : Nat :=
  (u.bytes.getD 6 0).toNat % 16 * 2 ^ 56 + (u.bytes.getD 7 0).toNat * 2 ^ 48 + (u.bytes.getD 4 0).toNat * 2 ^ 40 +
    (u.bytes.getD 5 0).toNat * 2 ^ 32 + (u.bytes.getD 0 0).toNat * 2 ^ 24 + (u.bytes.getD 1 0).toNat * 2 ^ 16 +
      (u.bytes.getD 2 0).toNat * 2 ^ 8 + (u.bytes.getD 3 0).toNat

/-- The 14-bit clock sequence of a version 1 UUID (RFC 4122, 4.1.5), without the variant. -/
def clockSeq (u : UUID) : Nat := (u.bytes.getD 8 0).toNat % 64 * 2 ^ 8 + (u.bytes.getD 9 0).toNat

end UUID

section Layout

variable (timeNow : UInt64) (clockSeq : UInt16) (hardwareAddr : List UInt8)

/-- Bytes 0 to 9 of `NewV1`'s layout, as the code writes them. -/
theorem take_layoutV1 :
    (layoutV1 timeNow clockSeq hardwareAddr).bytes.take 10 =
      [(timeNow.toUInt32 >>> 24).toUInt8, (timeNow.toUInt32 >>> 16).toUInt8, (timeNow.toUInt32 >>> 8).toUInt8,
        timeNow.toUInt32.toUInt8, ((timeNow >>> 32).toUInt16 >>> 8).toUInt8, (timeNow >>> 32).toUInt16.toUInt8,
        (((timeNow >>> 48).toUInt16 >>> 8).toUInt8 &&& (0x0f : UInt8)) ||| (v1 <<< 4),
        (timeNow >>> 48).toUInt16.toUInt8,
        ((clockSeq >>> 8).toUInt8 &&& ((0xff : UInt8) >>> 2)) ||| ((0x02 : UInt8) <<< 6), clockSeq.toUInt8] := by
  -- the address goes from byte 10 on, so bytes 6 and 8 are read from the four puts
  have versioned : ((putTime timeNow clockSeq).copyAt 10 hardwareAddr).byteAt 6 = (putTime timeNow clockSeq).byteAt 6 :=
    UUID.byteAt_copyAt_of_lt (by decide) (by decide)
  have varied : (((putTime timeNow clockSeq).copyAt 10 hardwareAddr).setVersion v1).byteAt 8 =
      (putTime timeNow clockSeq).byteAt 8 := by
    rw [UUID.setVersion, UUID.byteAt_setByte_of_ne (by decide), UUID.byteAt_copyAt_of_lt (by decide) (by decide)]
  rw [layoutV1, UUID.setVariant_rfc4122, varied, UUID.bytes_setByte, UUID.setVersion, versioned,
    UUID.bytes_setByte, List.take_set, List.take_set, UUID.take_copyAt _ (by decide)]
  rfl

/-- Bytes 10 to 15: the hardware address over zeros. -/
theorem drop_layoutV1 :
    (layoutV1 timeNow clockSeq hardwareAddr).bytes.drop 10 =
      hardwareAddr.take 6 ++ (List.replicate 6 0).drop (min hardwareAddr.length 6) := by
  rw [layoutV1, UUID.setVariant_rfc4122, UUID.bytes_setByte, List.drop_set_of_lt (by decide), UUID.setVersion,
    UUID.bytes_setByte, List.drop_set_of_lt (by decide), UUID.drop_copyAt _ (by decide), ← List.drop_drop]
  rfl

/-- The layout keeps the time modulo `2^60`. -/
theorem time_layoutV1 : (layoutV1 timeNow clockSeq hardwareAddr).time = timeNow.toNat % 2 ^ 60 := by
  -- the version overwrites the high half of byte 6 and keeps the low one
  have versioned : ∀ b : Fin 256, ((b.val.toUInt8 &&& (0x0f : UInt8)) ||| (v1 <<< 4)).toNat % 16 = b.val % 16 := by
    decide +kernel
  have high := versioned ⟨((timeNow >>> 48).toUInt16 >>> 8).toUInt8.toNat, UInt8.toNat_lt _⟩
  simp only [Nat.toUInt8_eq, UInt8.ofNat_toNat] at high
  rw [UUID.time, ← List.take_append_drop 10 (layoutV1 timeNow clockSeq hardwareAddr).bytes, take_layoutV1]
  simp only [List.cons_append, List.getD_cons_succ, List.getD_cons_zero, high]
  have below := timeNow.toNat_lt
  simp only [UInt32.toNat_toUInt8, UInt32.toNat_shiftRight, UInt64.toNat_toUInt32, UInt16.toNat_toUInt8,
    UInt16.toNat_shiftRight, UInt64.toNat_toUInt16, UInt64.toNat_shiftRight, Nat.shiftRight_eq_div_pow,
    UInt32.reduceToNat, UInt16.reduceToNat, UInt64.reduceToNat, Nat.reduceMod]
  omega

/-- The layout keeps the clock sequence modulo `2^14`. -/
theorem clockSeq_layoutV1 : (layoutV1 timeNow clockSeq hardwareAddr).clockSeq = clockSeq.toNat % 2 ^ 14 := by
  -- the variant overwrites the two high bits of byte 8 and keeps the six low ones
  have varied : ∀ b : Fin 256,
      ((b.val.toUInt8 &&& ((0xff : UInt8) >>> 2)) ||| ((0x02 : UInt8) <<< 6)).toNat % 64 = b.val % 64 := by
    decide +kernel
  have high := varied ⟨(clockSeq >>> 8).toUInt8.toNat, UInt8.toNat_lt _⟩
  simp only [Nat.toUInt8_eq, UInt8.ofNat_toNat] at high
  rw [UUID.clockSeq, ← List.take_append_drop 10 (layoutV1 timeNow clockSeq hardwareAddr).bytes, take_layoutV1]
  simp only [List.cons_append, List.getD_cons_succ, List.getD_cons_zero, high]
  have below := clockSeq.toNat_lt
  simp only [UInt16.toNat_toUInt8, UInt16.toNat_shiftRight, Nat.shiftRight_eq_div_pow, UInt16.reduceToNat,
    Nat.reduceMod]
  omega

end Layout

/-- Two stamps of one run of the counter, fewer than `2^14` readings apart and at
times below `2^60`, are laid out as two different UUIDs. -/
theorem stampUuid_ne (hardwareAddr : List UInt8) {n : Nat} {p q : Stamp} (prec : Precedes n p q)
    (few : n < 2 ^ 14) (early : p.time < 2 ^ 60) (early' : q.time < 2 ^ 60) :
    stampUuid hardwareAddr p ≠ stampUuid hardwareAddr q := by
  intro same
  have times := congrArg UUID.time same
  have counts := congrArg UUID.clockSeq same
  rw [stampUuid, stampUuid, time_layoutV1, time_layoutV1] at times
  rw [stampUuid, stampUuid, clockSeq_layoutV1, clockSeq_layoutV1] at counts
  simp only [Nat.toUInt64_eq, UInt64.toNat_ofNat', Nat.toUInt16_eq, UInt16.toNat_ofNat'] at times counts
  rcases ne_or_mod_ne_of_precedes prec few with differ | differ
  · omega
  · omega

/-- `NewV1` lays out equal UUIDs at clock sequences that agree in the 14 bits it keeps. -/
theorem layoutV1_congr {timeNow : UInt64} {clockSeq clockSeq' : UInt16} (hardwareAddr : List UInt8)
    (low : clockSeq.toUInt8 = clockSeq'.toUInt8)
    (high : (clockSeq >>> 8).toUInt8 &&& ((0xff : UInt8) >>> 2) = (clockSeq' >>> 8).toUInt8 &&& ((0xff : UInt8) >>> 2)) :
    layoutV1 timeNow clockSeq hardwareAddr = layoutV1 timeNow clockSeq' hardwareAddr := by
  apply UUID.ext
  rw [← List.take_append_drop 10 (layoutV1 timeNow clockSeq hardwareAddr).bytes,
    ← List.take_append_drop 10 (layoutV1 timeNow clockSeq' hardwareAddr).bytes, take_layoutV1, take_layoutV1,
    drop_layoutV1, drop_layoutV1, low, high]

/-- A counter `2^14` readings on is laid out as it was. -/
theorem stampUuid_add_wrap (hardwareAddr : List UInt8) (time count : Nat) :
    stampUuid hardwareAddr ⟨time, count + 2 ^ 14⟩ = stampUuid hardwareAddr ⟨time, count⟩ := by
  have above : ∀ b : Fin 256,
      (b.val.toUInt8 + (64 : UInt8)) &&& ((0xff : UInt8) >>> 2) = b.val.toUInt8 &&& ((0xff : UInt8) >>> 2) := by
    decide +kernel
  have shifted :
      ((count + 2 ^ 14).toUInt16 >>> (8 : UInt16)).toUInt8 = (count.toUInt16 >>> (8 : UInt16)).toUInt8 + (64 : UInt8) := by
    apply UInt8.toNat_inj.mp
    simp only [UInt16.toNat_toUInt8, UInt16.toNat_shiftRight, Nat.toUInt16_eq, UInt16.toNat_ofNat',
      UInt8.toNat_add, Nat.shiftRight_eq_div_pow, UInt16.reduceToNat, UInt8.reduceToNat, Nat.reduceMod]
    omega
  apply layoutV1_congr
  · apply UInt8.toNat_inj.mp
    simp only [UInt16.toNat_toUInt8, Nat.toUInt16_eq, UInt16.toNat_ofNat']
    omega
  · rw [shifted]
    have stamp := above ⟨(count.toUInt16 >>> (8 : UInt16)).toUInt8.toNat, UInt8.toNat_lt _⟩
    simp only [Nat.toUInt8_eq, UInt8.ofNat_toNat] at stamp
    exact stamp

theorem getEpoch_lt {now : Int64} (afterUnix : 0 ≤ now) : (getEpoch now).toNat < 2 ^ 60 := by
  have divided : (now / 100).toInt = now.toInt.tdiv 100 := Int64.toInt_div_of_ne_right _ _ (by decide)
  have signed : 0 ≤ now.toInt := Int64.le_iff_toInt_le.mp afterUnix
  have nonneg : 0 ≤ now / 100 := by
    rw [Int64.le_iff_toInt_le, divided]
    exact Int.tdiv_nonneg signed (by decide)
  have small := Int64.toInt_lt now
  have start : epochStart.toNat = 122192928000000000 := rfl
  rw [getEpoch, UInt64.toNat_add, Int64.toNat_toUInt64_of_le nonneg, ← Int64.toNat_toInt, divided, start,
    Int.tdiv_eq_ediv_of_nonneg signed]
  omega

/-! ## Runs -/

namespace Rfc4122Generator

/-- What a successful `getClockSequence` returns: the epoch read, and the clock
sequence it leaves. -/
theorem getClockSequence_eq_ok {g g' : Rfc4122Generator} {now : Int64} {timeNow : UInt64} {clockSeq : UInt16}
    (read : g.getClockSequence now = (.ok (timeNow, clockSeq), g')) :
    timeNow = getEpoch now ∧ clockSeq = g'.clockSequence ∧ g'.lastTime = getEpoch now ∧
      g'.clockSequenceOnce = true := by
  unfold getClockSequence at read
  by_cases done : g.clockSequenceOnce
  · rw [if_pos done] at read
    cases read
    exact ⟨rfl, rfl, rfl, done⟩
  · rw [if_neg done] at read
    cases readResult : g.readClockSequence with
    | mk err g'' =>
      rw [readResult] at read
      cases err with
      | some err => cases read
      | none =>
        cases read
        exact ⟨rfl, rfl, rfl, rfl⟩

/-- A UUID `NewV1` returns is the layout of the epoch it read, the clock sequence and
the hardware address it leaves, and both `Once` are done. -/
theorem eq_layoutV1_of_newV1 {g : Rfc4122Generator} {now : Int64} {u : UUID} (returned : (g.newV1 now).1 = .ok u) :
    (g.newV1 now).2.clockSequenceOnce = true ∧ (g.newV1 now).2.hardwareAddrOnce = true ∧
      (g.newV1 now).2.lastTime = getEpoch now ∧
        u = layoutV1 (getEpoch now) (g.newV1 now).2.clockSequence (g.newV1 now).2.hardwareAddr := by
  unfold newV1 at returned ⊢
  cases clockRead : g.getClockSequence now with
  | mk result g' =>
    rw [clockRead] at returned
    cases result with
    | error err => cases returned
    | ok read =>
      obtain ⟨timeNow, clockSeq⟩ := read
      obtain ⟨rfl, rfl, timeSet, drawn⟩ := getClockSequence_eq_ok clockRead
      dsimp only at returned ⊢
      cases addrRead : g'.getHardwareAddr with
      | mk addr g'' =>
        rw [addrRead] at returned
        have kept := clock_getHardwareAddr g'
        have fixed := hardwareAddrOnce_getHardwareAddr g'
        rw [addrRead] at kept fixed
        simp only [clock, Prod.mk.injEq] at kept
        cases addr with
        | error err => cases returned
        | ok hw =>
          cases returned
          have laid : hw = g''.hardwareAddr := by
            have returnedAddr : g'.getHardwareAddr.1 = .ok hw := by rw [addrRead]
            have kept := eq_of_getHardwareAddr returnedAddr
            rw [addrRead] at kept
            exact kept
          exact ⟨kept.1.trans drawn, fixed, kept.2.1.trans timeSet, by rw [kept.2.2, laid]⟩

/-- With both `Once` done, `NewV1` always returns, and reads nothing from `rand`. -/
theorem newV1_of_drawn {g : Rfc4122Generator} (drawn : g.clockSequenceOnce = true) (fixed : g.hardwareAddrOnce = true)
    (now : Int64) :
    g.newV1 now =
      (.ok (layoutV1 (getEpoch now) (g.advanceClock (getEpoch now)).clockSequence g.hardwareAddr),
        g.advanceClock (getEpoch now)) := by
  have fixed' : (g.advanceClock (getEpoch now)).hardwareAddrOnce = true := fixed
  rw [newV1_of_done drawn, getHardwareAddr_of_done fixed']
  rfl

end Rfc4122Generator

open Rfc4122Generator

theorem run_cons (env : Environment) (g : Rfc4122Generator) (call : Call) (calls : List Call) :
    run env g (call :: calls) =
      ((call.step env g).1 :: (run env (call.step env g).2 calls).1, (run env (call.step env g).2 calls).2) :=
  rfl

theorem v1Results_cons (call : Call) (calls : List Call) (result : Except ReadError UUID)
    (results : List (Except ReadError UUID)) :
    v1Results (call :: calls) (result :: results) = (v1Result call result).toList ++ v1Results calls results :=
  rfl

theorem v1Result_of_clockTime_none {call : Call} (untimed : call.clockTime = none) (result : Except ReadError UUID) :
    v1Result call result = none := by
  cases call <;> first | rfl | cases untimed

theorem v1Result_error (call : Call) (err : ReadError) : v1Result call (.error err) = none := by
  cases call <;> rfl

theorem hardware_run (env : Environment) {g : Rfc4122Generator} (fixed : g.hardwareAddrOnce = true)
    (calls : List Call) : (run env g calls).2.hardware = g.hardware := by
  induction calls generalizing g with
  | nil => rfl
  | cons call calls induction =>
    have kept := Call.hardware_step env fixed call
    have fixed' : (call.step env g).2.hardwareAddrOnce = true := (congrArg Prod.fst kept).trans fixed
    exact (induction fixed').trans kept

/-- The epochs at which the calls of a run read the clock. -/
def epochs (calls : List Call) : List Nat :=
  (calls.filterMap Call.clockTime).map fun now => (getEpoch now).toNat

theorem epochs_cons_of_none {call : Call} (untimed : call.clockTime = none) (calls : List Call) :
    epochs (call :: calls) = epochs calls := by
  rw [epochs, List.filterMap_cons_none untimed, epochs]

theorem epochs_cons_of_some {call : Call} {now : Int64} (timed : call.clockTime = some now) (calls : List Call) :
    epochs (call :: calls) = (getEpoch now).toNat :: epochs calls := by
  rw [epochs, List.filterMap_cons_some timed, List.map_cons, epochs]

/-- With the clock sequence drawn, the version 1 UUIDs of a run are laid out at
stamps of the counter read at the run's epochs, in order, some stamps skipped. -/
theorem v1Results_sublist (env : Environment) (calls : List Call) :
    ∀ {g : Rfc4122Generator} {s : Stamp}, g.clockSequenceOnce = true → Tracks g s →
      (v1Results calls (run env g calls).1).Sublist
        ((s.run (epochs calls)).map (stampUuid (run env g calls).2.hardwareAddr)) := by
  induction calls with
  | nil =>
    intro g s _ _
    exact List.nil_sublist _
  | cons call calls induction =>
    intro g s drawn tracks
    rw [run_cons, v1Results_cons]
    cases timed : call.clockTime with
    | none =>
      -- the call leaves the clock alone and returns no version 1 UUID
      have kept : (call.step env g).2.clock = g.clock := Call.clock_step_of_none env timed
      have drawn' : (call.step env g).2.clockSequenceOnce = true := (congrArg Prod.fst kept).trans drawn
      rw [v1Result_of_clockTime_none timed, epochs_cons_of_none timed]
      exact induction drawn' (tracks.of_clock kept)
    | some now =>
      -- the call reads the clock once, and the counter is read once
      have advanced := Call.clock_step_of_some env drawn timed
      have drawn' : (call.step env g).2.clockSequenceOnce = true := (congrArg Prod.fst advanced).trans drawn
      have tracks' := (tracks.advanceClock (getEpoch now)).of_clock advanced
      rw [epochs_cons_of_some timed, Stamp.run, List.map_cons]
      cases found : v1Result call (call.step env g).1 with
      | none => exact (induction drawn' tracks').cons _
      | some u =>
        obtain ⟨now', timed', rfl, fixed⟩ := Call.eq_layoutV1_of_v1Result env drawn found
        rw [timed] at timed'
        cases timed'
        -- the address of this UUID is the one the rest of the run keeps
        have head : layoutV1 (getEpoch now) (g.advanceClock (getEpoch now)).clockSequence (call.step env g).2.hardwareAddr =
            stampUuid (run env (call.step env g).2 calls).2.hardwareAddr (s.tick (getEpoch now).toNat) := by
          have sameAddr : (run env (call.step env g).2 calls).2.hardwareAddr = (call.step env g).2.hardwareAddr :=
            congrArg Prod.snd (hardware_run env fixed calls)
          rw [sameAddr]
          exact layoutV1_of_tracks (tracks.advanceClock (getEpoch now)) _
        rw [head]
        exact (induction drawn' tracks').cons_cons _

namespace Call

variable {env : Environment} {g g' : Rfc4122Generator} {call : Call} {now : Int64}

theorem step_of_read (pending : g.clockSequenceOnce = false) (read : g.readClockSequence = (none, g'))
    (timed : call.clockTime = some now) : call.step env g = call.step env { g' with clockSequenceOnce := true } := by
  have same := getClockSequence_of_read pending read now
  cases call with
  | newV1 now' =>
    cases timed
    exact newV1_congr same
  | newV2 domain now' =>
    cases timed
    exact newV2_congr _ _ domain (newV1_congr same)
  | newV3 ns name => cases timed
  | newV4 => cases timed
  | newV5 ns name => cases timed

theorem step_of_read_error {err : ReadError} (pending : g.clockSequenceOnce = false)
    (read : g.readClockSequence = (some err, g')) (timed : call.clockTime = some now) :
    call.step env g = (.error err, { g' with clockSequenceOnce := true }) := by
  have failed : g.newV1 now = (.error err, { g' with clockSequenceOnce := true }) := by
    rw [Rfc4122Generator.newV1, getClockSequence_of_read_error pending read now]
  cases call with
  | newV1 now' =>
    cases timed
    exact failed
  | newV2 domain now' =>
    cases timed
    rw [step, Rfc4122Generator.newV2, failed]
  | newV3 ns name => cases timed
  | newV4 => cases timed
  | newV5 ns name => cases timed

end Call

/-- Until the clock sequence is drawn, a run's version 1 UUIDs are those of a run,
over fewer clock readings, from a generator that has drawn it. -/
theorem exists_drawn_run (env : Environment) (calls : List Call) (g : Rfc4122Generator) :
    ∃ (g' : Rfc4122Generator) (calls' : List Call), g'.clockSequenceOnce = true ∧
      (calls'.filterMap Call.clockTime).Sublist (calls.filterMap Call.clockTime) ∧
        v1Results calls (run env g calls).1 = v1Results calls' (run env g' calls').1 := by
  induction calls generalizing g with
  | nil => exact ⟨{ g with clockSequenceOnce := true }, [], rfl, List.Sublist.slnil, rfl⟩
  | cons call calls induction =>
    cases pending : g.clockSequenceOnce
    case true => exact ⟨g, call :: calls, pending, List.Sublist.refl _, rfl⟩
    case false =>
      cases timed : call.clockTime with
      | none =>
        -- a call that does not read the clock leaves the `Once` to a later one
        obtain ⟨g', calls', drawn, fewer, same⟩ := induction (call.step env g).2
        refine ⟨g', calls', drawn, ?_, ?_⟩
        · rw [List.filterMap_cons_none timed]
          exact fewer
        · rw [run_cons, v1Results_cons, v1Result_of_clockTime_none timed]
          exact same
      | some now =>
        cases read : g.readClockSequence with
        | mk err g' =>
          cases err with
          | some err =>
            -- the read fails: the call returns its error, and the `Once` is done
            refine ⟨{ g' with clockSequenceOnce := true }, calls, rfl, ?_, ?_⟩
            · rw [List.filterMap_cons_some timed]
              exact List.sublist_cons_self _ _
            · rw [run_cons, Call.step_of_read_error pending read timed, v1Results_cons, v1Result_error]
              rfl
          | none =>
            -- the read succeeds: the call goes on as from the generator after the `Once`
            refine ⟨{ g' with clockSequenceOnce := true }, call :: calls, rfl, List.Sublist.refl _, ?_⟩
            rw [run_cons, run_cons, Call.step_of_read pending read timed]

/-- In a run of at most `2^14` calls that read the clock, at times from the Unix
epoch on, the `NewV1` calls return pairwise different UUIDs, whatever the clock
reports and in whatever order. -/
theorem v1Results_nodup (env : Environment) (g : Rfc4122Generator) (calls : List Call)
    (few : (calls.filterMap Call.clockTime).length ≤ 2 ^ 14)
    (afterUnix : ∀ now ∈ calls.filterMap Call.clockTime, 0 ≤ now) :
    (v1Results calls (run env g calls).1).Nodup := by
  obtain ⟨g', calls', drawn, fewer, same⟩ := exists_drawn_run env calls g
  rw [same]
  refine (v1Results_sublist env calls' drawn (Tracks.self g')).nodup ?_
  rw [List.nodup_iff_pairwise_ne, List.pairwise_map]
  -- the stamps of one run are fewer than 2^14 readings apart, at epochs below 2^60
  have apart : (epochs calls').length - 1 < 2 ^ 14 := by
    have := fewer.length_le
    rw [epochs, List.length_map]
    omega
  have early : ∀ t ∈ epochs calls', t < 2 ^ 60 := by
    intro t member
    obtain ⟨now, timed, rfl⟩ := List.mem_map.mp member
    exact getEpoch_lt (afterUnix now (fewer.subset timed))
  exact (precedes_run _ _).imp_of_mem fun pm qm prec =>
    stampUuid_ne _ prec apart (early _ (time_mem_of_mem_run pm)) (early _ (time_mem_of_mem_run qm))

theorem v1Results_nodup_same_time :
    ([Call.newV1 0, Call.newV1 0].filterMap Call.clockTime).length ≤ 2 ^ 14 ∧
      (∀ now ∈ [Call.newV1 0, Call.newV1 0].filterMap Call.clockTime, 0 ≤ now) ∧
        (v1Results [Call.newV1 0, Call.newV1 0]
          (run ⟨fun _ => [], fun _ => [], 0, 0⟩ (newRFC4122Generator [0, 0] (.ok [1, 2, 3, 4, 5, 6]))
            [Call.newV1 0, Call.newV1 0]).1).Nodup := by
  -- the readings are checked one by one: the instance for a bounded forall over
  -- a list that all of Mathlib brings does not reduce by decide
  have afterUnix : ∀ now ∈ [Call.newV1 0, Call.newV1 0].filterMap Call.clockTime, 0 ≤ now := by
    intro now member
    simp only [List.filterMap_cons, Call.clockTime, List.filterMap_nil, List.mem_cons, List.not_mem_nil,
      or_false, or_self] at member
    rw [member]
    decide
  exact ⟨by decide, afterUnix, v1Results_nodup _ _ _ (by decide) afterUnix⟩

/-- With both `Once` done, a run of `NewV1` calls returns, call by call, the
layouts of the counter's stamps at the epochs read. -/
theorem run_newV1_of_drawn (env : Environment) (times : List Int64) :
    ∀ {g : Rfc4122Generator} {s : Stamp}, g.clockSequenceOnce = true → g.hardwareAddrOnce = true → Tracks g s →
      (run env g (times.map Call.newV1)).1 =
        (s.run (times.map fun now => (getEpoch now).toNat)).map fun stamp => .ok (stampUuid g.hardwareAddr stamp) := by
  induction times with
  | nil =>
    intro g s _ _ _
    rfl
  | cons now times induction =>
    intro g s drawn fixed tracks
    rw [List.map_cons, run_cons, List.map_cons, Stamp.run, List.map_cons]
    have called : (Call.newV1 now).step env g =
        (.ok (layoutV1 (getEpoch now) (g.advanceClock (getEpoch now)).clockSequence g.hardwareAddr),
          g.advanceClock (getEpoch now)) :=
      newV1_of_drawn drawn fixed now
    -- the call returns the layout at the next stamp, and the clock is at that stamp after it
    have head : layoutV1 (getEpoch now) (g.advanceClock (getEpoch now)).clockSequence g.hardwareAddr =
        stampUuid g.hardwareAddr (s.tick (getEpoch now).toNat) :=
      layoutV1_of_tracks (tracks.advanceClock (getEpoch now)) _
    have drawn' : (g.advanceClock (getEpoch now)).clockSequenceOnce = true := drawn
    have fixed' : (g.advanceClock (getEpoch now)).hardwareAddrOnce = true := fixed
    rw [called, head, induction drawn' fixed' (tracks.advanceClock (getEpoch now))]
    rfl

/-- At a clock that does not move, `NewV1` returns after `2^14` more calls the UUID
it returned first: the clock sequence wraps in the 14 bits the layout keeps. -/
theorem newV1_repeats_at_stuck_clock (env : Environment) (g : Rfc4122Generator) (now : Int64) (u : UUID)
    (first : (g.newV1 now).1 = .ok u) :
    (run env (g.newV1 now).2 (List.replicate (2 ^ 14) (Call.newV1 now))).1.getLast? = some (.ok u) := by
  obtain ⟨drawn, fixed, timeSet, laid⟩ := eq_layoutV1_of_newV1 first
  have ran := run_newV1_of_drawn env (List.replicate (2 ^ 14) now) drawn fixed (Tracks.self (g.newV1 now).2)
  rw [List.map_replicate] at ran
  -- every reading is at the epoch the first call left as the last time
  have stuck : (getEpoch now).toNat ≤ (g.newV1 now).2.lastTime.toNat := by rw [timeSet]
  rw [ran, List.map_replicate, run_replicate_of_le stuck, List.getLast?_map, List.getLast?_map,
    List.getLast?_range, if_neg (by decide), Option.map_some, Option.map_some, Nat.sub_add_cancel (by decide)]
  -- the last stamp is the first one with the counter `2^14` on
  rw [laid, ← timeSet, layoutV1_of_tracks (Tracks.self _), stampUuid_add_wrap]

theorem newV1_repeats_at_stuck_clock_zero :
    ((newRFC4122Generator [0, 0] (.ok [1, 2, 3, 4, 5, 6])).newV1 0).1 =
        .ok ⟨[19, 129, 64, 0, 29, 210, 17, 178, 128, 0, 1, 2, 3, 4, 5, 6], rfl⟩ ∧
      (run ⟨fun _ => [], fun _ => [], 0, 0⟩ ((newRFC4122Generator [0, 0] (.ok [1, 2, 3, 4, 5, 6])).newV1 0).2
          (List.replicate (2 ^ 14) (Call.newV1 0))).1.getLast? =
        some (.ok ⟨[19, 129, 64, 0, 29, 210, 17, 178, 128, 0, 1, 2, 3, 4, 5, 6], rfl⟩) :=
  have first : ((newRFC4122Generator [0, 0] (.ok [1, 2, 3, 4, 5, 6])).newV1 0).1 =
      .ok ⟨[19, 129, 64, 0, 29, 210, 17, 178, 128, 0, 1, 2, 3, 4, 5, 6], rfl⟩ := by decide
  ⟨first, newV1_repeats_at_stuck_clock _ _ _ _ first⟩

theorem copyAt_zero_congr {u u' : UUID} {src : List UInt8} (four : src.length = 4)
    (same : u.bytes.drop 4 = u'.bytes.drop 4) : u.copyAt 0 src = u'.copyAt 0 src := by
  have front : 0 + min src.length (size - 0) = 4 := by rw [four]; rfl
  apply UUID.ext
  rw [UUID.bytes_copyAt, UUID.bytes_copyAt, front, same, List.take_zero, List.take_zero]

/-- For the person and group domains `NewV2` writes the id over bytes 0 to 3, so
it reads only the rest of the version 1 UUID. -/
theorem newV2_domain_congr (posixUID posixGID : UInt32) {domain : UInt8}
    (identified : domain = domainPerson ∨ domain = domainGroup) {u u' : UUID} (same : u.bytes.drop 4 = u'.bytes.drop 4) :
    (if domain = domainPerson then u.copyAt 0 (Binary.putUint32 posixUID)
      else if domain = domainGroup then u.copyAt 0 (Binary.putUint32 posixGID) else u) =
    (if domain = domainPerson then u'.copyAt 0 (Binary.putUint32 posixUID)
      else if domain = domainGroup then u'.copyAt 0 (Binary.putUint32 posixGID) else u') := by
  rcases identified with rfl | rfl
  · rw [if_pos rfl, if_pos rfl]
    exact copyAt_zero_congr rfl same
  · rw [if_neg (by decide), if_pos rfl, if_neg (by decide), if_pos rfl]
    exact copyAt_zero_congr rfl same

/-- Two layouts of `NewV1` whose times agree above the low 32 bits agree from byte 4 on. -/
theorem drop_four_layoutV1 {timeNow timeNow' : UInt64} (clockSeq : UInt16) (hardwareAddr : List UInt8)
    (sameHigh : timeNow >>> 32 = timeNow' >>> 32) :
    (layoutV1 timeNow clockSeq hardwareAddr).bytes.drop 4 = (layoutV1 timeNow' clockSeq hardwareAddr).bytes.drop 4 := by
  have high : timeNow >>> 48 = timeNow' >>> 48 := by
    have same := congrArg UInt64.toNat sameHigh
    apply UInt64.toNat_inj.mp
    simp only [UInt64.toNat_shiftRight, Nat.shiftRight_eq_div_pow, UInt64.reduceToNat, Nat.reduceMod] at same ⊢
    omega
  rw [← List.take_append_drop 10 (layoutV1 timeNow clockSeq hardwareAddr).bytes,
    ← List.take_append_drop 10 (layoutV1 timeNow' clockSeq hardwareAddr).bytes, take_layoutV1, take_layoutV1,
    drop_layoutV1, drop_layoutV1, sameHigh, high]
  rfl

theorem newV2_eq_of_newV1 (posixUID posixGID : UInt32) {g g' : Rfc4122Generator} (domain : UInt8) {now : Int64}
    {u : UUID} (returned : g.newV1 now = (.ok u, g')) :
    g.newV2 posixUID posixGID domain now =
      (.ok ((((if domain = domainPerson then u.copyAt 0 (Binary.putUint32 posixUID)
        else if domain = domainGroup then u.copyAt 0 (Binary.putUint32 posixGID) else u).setByte 9 domain).setVersion
          v2).setVariant variantRFC4122), g') := by
  rw [newV2, returned]

/-- `NewV2` for the person or the group domain gives the same UUID to two calls
whose epochs agree above the low 32 bits (a window of about seven minutes), when
the clock moved forward between them: the id overwrites the low 32 bits of the
time, and a clock that moves forward keeps the clock sequence. -/
theorem newV2_repeats_within_time_high (env : Environment) (g : Rfc4122Generator) (domain : UInt8) (now now' : Int64)
    (u : UUID) (identified : domain = domainPerson ∨ domain = domainGroup)
    (first : ((Call.newV2 domain now).step env g).1 = .ok u) (later : getEpoch now < getEpoch now')
    (sameHigh : getEpoch now >>> 32 = getEpoch now' >>> 32) :
    ((Call.newV2 domain now').step env ((Call.newV2 domain now).step env g).2).1 = .ok u := by
  simp only [Call.step] at first ⊢
  rw [newV2_snd]
  cases called : g.newV1 now with
  | mk result g' =>
    cases result with
    | error err =>
      rw [newV2, called] at first
      cases first
    | ok u1 =>
      rw [newV2_eq_of_newV1 _ _ domain called] at first
      cases first
      have returned : (g.newV1 now).1 = .ok u1 := by rw [called]
      obtain ⟨drawn, fixed, timeSet, laid⟩ := eq_layoutV1_of_newV1 returned
      rw [called] at drawn fixed timeSet laid
      -- the clock moved forward, so the second call keeps the clock sequence
      have kept : (g'.advanceClock (getEpoch now')).clockSequence = g'.clockSequence := by
        rw [advanceClock, if_neg (by rw [timeSet]; exact UInt64.not_le.mpr later)]
      dsimp only
      rw [newV2_eq_of_newV1 _ _ domain (newV1_of_drawn drawn fixed now'), kept, laid,
        newV2_domain_congr _ _ identified (drop_four_layoutV1 _ _ sameHigh.symm)]

theorem newV2_repeats_within_time_high_person :
    let env : Environment := ⟨fun _ => [], fun _ => [], 7, 8⟩
    let g := newRFC4122Generator [0, 0] (.ok [1, 2, 3, 4, 5, 6])
    (domainPerson = domainPerson ∨ domainPerson = domainGroup) ∧
      ((Call.newV2 domainPerson 0).step env g).1 =
        .ok ⟨[0, 0, 0, 7, 29, 210, 33, 178, 128, 0, 1, 2, 3, 4, 5, 6], rfl⟩ ∧
      getEpoch 0 < getEpoch 100 ∧ getEpoch 0 >>> 32 = getEpoch 100 >>> 32 ∧
      ((Call.newV2 domainPerson 100).step env ((Call.newV2 domainPerson 0).step env g).2).1 =
        .ok ⟨[0, 0, 0, 7, 29, 210, 33, 178, 128, 0, 1, 2, 3, 4, 5, 6], rfl⟩ :=
  have first : ((Call.newV2 domainPerson 0).step ⟨fun _ => [], fun _ => [], 7, 8⟩
      (newRFC4122Generator [0, 0] (.ok [1, 2, 3, 4, 5, 6]))).1 =
        .ok ⟨[0, 0, 0, 7, 29, 210, 33, 178, 128, 0, 1, 2, 3, 4, 5, 6], rfl⟩ := by decide
  ⟨.inl rfl, first, by decide, by decide,
    newV2_repeats_within_time_high _ _ _ _ _ _ (.inl rfl) first (by decide) (by decide)⟩

end CoreSdk.Common.Uuid
