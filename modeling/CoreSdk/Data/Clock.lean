import Mathlib.Data.Nat.ModEq
import Mathlib.Data.List.Pairwise

/-!
# A clock that counts the readings that do not advance

Each reading stamps the time read with a counter. The counter goes up by one
when the time read is not past the last one, as RFC 4122 asks of a clock
sequence. Of two stamps of a run, the later one is past the earlier either in
the time, at the same counter, or in the counter, by at most the number of
readings between them (`precedes_run`). So two stamps of a run differ in the
time or in the counter modulo any `m` larger than that number
(`ne_or_mod_ne_of_precedes`). Readings at a time that does not move raise the
counter once each (`run_replicate_of_le`), which is how a counter cut to a few
bits comes back to a stamp it gave before.

Nothing here names the program being modelled.
-/

namespace ClockSequence

set_option autoImplicit false

/-- The last time read and the counter. -/
structure Stamp where
  time : Nat
  count : Nat
  deriving DecidableEq, Repr

/-- A reading at `t`: the counter goes up when `t` is not past the last time. -/
def Stamp.tick (s : Stamp) (t : Nat) : Stamp := ⟨t, if t ≤ s.time then s.count + 1 else s.count⟩

/-- The stamps of readings at the times `ts`, in order. -/
def Stamp.run (s : Stamp) : List Nat → List Stamp
  | [] => []
  | t :: ts => s.tick t :: (s.tick t).run ts

/-- `q` is a stamp after `p`, at most `n` readings later. -/
def Precedes (n : Nat) (p q : Stamp) : Prop :=
  (q.count = p.count ∧ p.time < q.time) ∨ (p.count < q.count ∧ q.count ≤ p.count + n)

/-- The clock `s` is at the stamp `p` or after it, at most `n` readings later. -/
def Behind (n : Nat) (p s : Stamp) : Prop :=
  (s.count = p.count ∧ p.time ≤ s.time) ∨ (p.count < s.count ∧ s.count ≤ p.count + n)

variable {n m : Nat} {p q s : Stamp}

theorem behind_refl (p : Stamp) : Behind 0 p p := .inl ⟨rfl, le_rfl⟩

theorem Precedes.behind (prec : Precedes n p q) : Behind n p q := by
  rcases prec with ⟨same, later⟩ | counted
  · exact .inl ⟨same, later.le⟩
  · exact .inr counted

theorem Precedes.mono (prec : Precedes n p q) (le : n ≤ m) : Precedes m p q := by
  rcases prec with stamped | ⟨above, within⟩
  · exact .inl stamped
  · exact .inr ⟨above, by omega⟩

/-- A reading of a clock at or after `p` gives a stamp after `p`. -/
theorem precedes_tick (behind : Behind n p s) (t : Nat) : Precedes (n + 1) p (s.tick t) := by
  unfold Stamp.tick Precedes
  -- a time past the last keeps the counter, any other raises it
  by_cases stuck : t ≤ s.time
  · rw [if_pos stuck]
    right
    rcases behind with ⟨same, _⟩ | ⟨above, within⟩
    · dsimp only
      omega
    · dsimp only
      omega
  · rw [if_neg stuck]
    rcases behind with ⟨same, early⟩ | ⟨above, within⟩
    · exact .inl ⟨same, by dsimp only; omega⟩
    · exact .inr ⟨above, by dsimp only; omega⟩

theorem precedes_of_mem_run (behind : Behind n p s) {ts : List Nat} (member : q ∈ s.run ts) :
    Precedes (n + ts.length) p q := by
  induction ts generalizing n s with
  | nil => cases member
  | cons t ts induction =>
    have next := precedes_tick behind t
    rcases List.mem_cons.mp member with rfl | later
    · exact next.mono (by simp)
    · exact (induction next.behind later).mono (by simp only [List.length_cons]; omega)

/-- Of two stamps of one run, the later is after the earlier by fewer readings
than the run has. -/
theorem precedes_run (s : Stamp) (ts : List Nat) : (s.run ts).Pairwise (Precedes (ts.length - 1)) := by
  induction ts generalizing s with
  | nil => exact List.Pairwise.nil
  | cons t ts induction =>
    refine List.Pairwise.cons (fun q later => ?_) ((induction (s.tick t)).imp fun prec => prec.mono ?_)
    · exact (precedes_of_mem_run (behind_refl (s.tick t)) later).mono (by simp)
    · simp only [List.length_cons]
      omega

theorem time_mem_of_mem_run {ts : List Nat} (member : q ∈ s.run ts) : q.time ∈ ts := by
  induction ts generalizing s with
  | nil => cases member
  | cons t ts induction =>
    rcases List.mem_cons.mp member with rfl | later
    · exact List.mem_cons_self
    · exact List.mem_cons_of_mem t (induction later)

/-- Two stamps, the second after the first by fewer readings than `m`, differ in
the time or in the counter modulo `m`. -/
theorem ne_or_mod_ne_of_precedes (prec : Precedes n p q) (few : n < m) :
    p.time ≠ q.time ∨ p.count % m ≠ q.count % m := by
  rcases prec with ⟨_, later⟩ | ⟨above, within⟩
  · exact .inl (Nat.ne_of_lt later)
  · right
    intro same
    -- the counters differ by a multiple of `m` that is smaller than `m`
    have divides : m ∣ q.count - p.count := (Nat.modEq_iff_dvd' above.le).mp same
    have := Nat.le_of_dvd (by omega) divides
    omega

/-- Readings at a time that is not past the clock's raise the counter once each. -/
theorem run_replicate_of_le {t : Nat} (stuck : t ≤ s.time) (k : Nat) :
    s.run (List.replicate k t) = (List.range k).map fun i => ⟨t, s.count + (i + 1)⟩ := by
  induction k generalizing s with
  | zero => rfl
  | succ k induction =>
    have first : s.tick t = ⟨t, s.count + 1⟩ := by rw [Stamp.tick, if_pos stuck]
    rw [List.replicate_succ, Stamp.run, first, induction (le_refl t), List.range_succ_eq_map,
      List.map_cons, List.map_map]
    congr 2
    funext i
    simp only [Function.comp_apply, Stamp.mk.injEq, true_and]
    omega

end ClockSequence
