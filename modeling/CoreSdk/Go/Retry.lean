import CoreSdk.Go.Runtime

/-!
# Retrying a call

The driver `retry.Do(f, retry.Attempts(n), retry.RetryIf(p))` of the Go package
avast/retry-go, as far as a caller can observe it: `f` is called at most `n`
times, and called again only while the error it returned satisfies `p`. The
delays between calls and the `OnRetry` hook change nothing a caller reads.

A closure passed to the driver keeps its state in the variables it captures, so
`f` here takes that state and returns it updated, with the error of the call.
The driver hands the state from one call to the next and returns the last
state and the last error.

The rule `retryDo_spec` is the one proofs use: an invariant indexed by the
number of calls left, which every call either keeps (when it will be retried)
or turns into the postcondition.
-/

namespace Go

set_option autoImplicit false

variable {σ ε : Type}

/-- `retry.Do` with `Attempts(attempts)` and `RetryIf(retryIf)`. -/
def retryDo (retryIf : ε → Bool) (f : σ → Result (σ × Option ε)) : Nat → σ → Result (σ × Option ε)
  | 0, s => pure (s, none)
  | attempts + 1, s => do
      let (s, err) ← f s
      match err with
      | none => pure (s, none)
      | some e =>
          if retryIf e && decide (0 < attempts) then retryDo retryIf f attempts s
          else pure (s, some e)

section Rules

variable (retryIf : ε → Bool) (f : σ → Result (σ × Option ε))

theorem retryDo_succ_of_none (attempts : Nat) (s s' : σ) (call : f s = .ok (s', none)) :
    retryDo retryIf f (attempts + 1) s = .ok (s', none) := by
  rw [retryDo, call, ok_bind]
  rfl

theorem retryDo_succ_of_some (attempts : Nat) (s s' : σ) (e : ε) (call : f s = .ok (s', some e)) :
    retryDo retryIf f (attempts + 1) s =
      if retryIf e && decide (0 < attempts) then retryDo retryIf f attempts s'
      else .ok (s', some e) := by
  rw [retryDo, call, ok_bind]
  rfl

/-- Total correctness of the driver. `Inv k s` holds before a call with `k`
calls left, this one included; each call returns, establishes `Post` of what it
returned, and re-establishes `Inv` whenever the driver will call again. -/
theorem retryDo_spec (Inv : Nat → σ → Prop) (Post : σ → Option ε → Prop)
    (step : ∀ attempts s, Inv (attempts + 1) s →
      ∃ s' err, f s = .ok (s', err) ∧ Post s' err ∧
        ∀ e, err = some e → retryIf e = true → 0 < attempts → Inv attempts s')
    (attempts : Nat) (s : σ) (initial : Inv (attempts + 1) s) :
    ∃ s' err, retryDo retryIf f (attempts + 1) s = .ok (s', err) ∧ Post s' err := by
  induction attempts generalizing s with
  | zero =>
      obtain ⟨s', err, call, post, _⟩ := step 0 s initial
      cases err with
      | none => exact ⟨s', none, retryDo_succ_of_none retryIf f 0 s s' call, post⟩
      | some e =>
          refine ⟨s', some e, ?_, post⟩
          rw [retryDo_succ_of_some retryIf f 0 s s' e call]
          simp
  | succ attempts induction =>
      obtain ⟨s', err, call, post, again⟩ := step (attempts + 1) s initial
      cases err with
      | none => exact ⟨s', none, retryDo_succ_of_none retryIf f _ s s' call, post⟩
      | some e =>
          rw [retryDo_succ_of_some retryIf f (attempts + 1) s s' e call]
          -- a retryable error goes round again with one call fewer
          by_cases retried : retryIf e = true
          · simp only [retried, Bool.true_and, decide_eq_true (Nat.succ_pos attempts), if_true]
            exact induction s' (again e rfl retried (Nat.succ_pos attempts))
          · simp only [Bool.not_eq_true] at retried
            simp only [retried, Bool.false_and, Bool.false_eq_true, if_false]
            exact ⟨s', some e, rfl, post⟩

end Rules

end Go
