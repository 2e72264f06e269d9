import Mathlib.Data.List.Basic

/-!
# Runs of a step that can block

A system of goroutines as a step on events that returns `none` when the event
cannot be taken, a goroutine being blocked or not at that point of its code,
run over a schedule of events by `List.foldlM` in `Option`. The schedule is
any interleaving: a property of every run is a property of every order the
goroutines can take.

An invariant kept by every step that is taken holds after every run
(`run_invariant`).

Nothing here names the program being modelled.
-/

namespace Go

set_option autoImplicit false

variable {σ ε : Type}

/-- The invariant rule for interleavings: what every step that is taken keeps
holds after every run that is taken to its end. -/
theorem run_invariant (step : σ → ε → Option σ) (inv : σ → Prop)
    (keeps : ∀ s e s', inv s → step s e = some s' → inv s') :
    ∀ (events : List ε) {s s' : σ}, inv s → events.foldlM step s = some s' → inv s'
  | [], _, _, holds, ran => by
      cases ran
      exact holds
  | e :: events, s, _, holds, ran => by
      rw [List.foldlM_cons] at ran
      obtain ⟨middle, stepped, rest⟩ := Option.bind_eq_some_iff.mp ran
      exact run_invariant step inv keeps events (keeps s e middle holds stepped) rest

end Go
