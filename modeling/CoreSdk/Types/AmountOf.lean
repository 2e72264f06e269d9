import Mathlib
import CoreSdk.Types.CoinArith

/-!
# The binary search of `AmountOf`

`Coins.AmountOf` and `DecCoins.AmountOf` (`types/coin.go`, `types/dec_coin.go`)
validate the denom and then search the set by halves: the coin at `len/2`
decides whether the search goes on in the slice before it or in the one after
it. On a set sorted strictly by denom the search finds what a linear lookup
finds: the amount of the one coin of the denom, or zero
(`amountOf_binary_search`).
-/

namespace CoreSdk.Types

open Go

set_option autoImplicit false

namespace CoinOf

variable {A : Type}

/-- The amount of a denom by linear lookup: the first coin of that denom, or `zero`. -/
def lookup (zero : A) (coins : List (CoinOf A)) (denom : String) : A :=
  match coins.find? (fun coin => decide (coin.denom = denom)) with
  | some coin => coin.amount
  | none => zero

section Lookup

variable (zero : A) (denom : String)

theorem lookup_cons_self (coin : CoinOf A) (rest : List (CoinOf A)) :
    lookup zero (coin :: rest) coin.denom = coin.amount := by
  simp [lookup]

theorem lookup_cons_of_ne (coin : CoinOf A) (rest : List (CoinOf A)) (other : coin.denom ≠ denom) :
    lookup zero (coin :: rest) denom = lookup zero rest denom := by
  simp [lookup, other]

theorem lookup_of_absent {coins : List (CoinOf A)} (absent : ∀ c ∈ coins, c.denom ≠ denom) :
    lookup zero coins denom = zero := by
  have none : coins.find? (fun coin => decide (coin.denom = denom)) = none := by
    rw [List.find?_eq_none]
    intro c member
    simpa using absent c member
  rw [lookup, none]

/-- Coins above the denom after the ones searched change nothing. -/
theorem lookup_append_of_above (front back : List (CoinOf A)) (above : ∀ c ∈ back, denom < c.denom) :
    lookup zero (front ++ back) denom = lookup zero front denom := by
  cases found : front.find? (fun coin => decide (coin.denom = denom)) with
  | some coin => rw [lookup, List.find?_append, found, lookup, found]; rfl
  | none =>
      have missed : back.find? (fun coin => decide (coin.denom = denom)) = none := by
        rw [List.find?_eq_none]
        intro c member
        simpa using (ne_of_lt (above c member)).symm
      rw [lookup, List.find?_append, found, missed, lookup, found]
      rfl

/-- Coins below the denom before the ones searched change nothing. -/
theorem lookup_append_of_below (front back : List (CoinOf A)) (below : ∀ c ∈ front, c.denom < denom) :
    lookup zero (front ++ back) denom = lookup zero back denom := by
  have missed : front.find? (fun coin => decide (coin.denom = denom)) = none := by
    rw [List.find?_eq_none]
    intro c member
    simpa using ne_of_lt (below c member)
  rw [lookup, List.find?_append, missed, Option.none_or, lookup]

/-- In a set sorted strictly by denom, the lookup finds the one coin of its denom. -/
theorem lookup_of_mem {coins : List (CoinOf A)} (ascending : coins.Pairwise (·.denom < ·.denom))
    {coin : CoinOf A} (member : coin ∈ coins) : lookup zero coins coin.denom = coin.amount := by
  induction coins with
  | nil => simp at member
  | cons first rest induction =>
      obtain ⟨above, restAscending⟩ := List.pairwise_cons.mp ascending
      rcases List.mem_cons.mp member with rfl | inRest
      · exact lookup_cons_self zero coin rest
      · rw [lookup_cons_of_ne zero _ first rest (ne_of_lt (above coin inRest)),
          induction restAscending inRest]

end Lookup

theorem mustValidateDenom_of_valid {denom : String} (valid : validateDenom denom = .ok ()) :
    mustValidateDenom denom = .ok () := by
  rw [mustValidateDenom, valid]
  rfl

theorem amountOf_of_invalid (zero : A) (coins : List (CoinOf A)) {denom : String}
    (invalid : validateDenom denom ≠ .ok ()) : Panicked (amountOf zero coins denom) := by
  cases refused : validateDenom denom with
  | ok _ => exact absurd refused invalid
  | error err =>
      unfold amountOf
      apply panicked_bind
      rw [mustValidateDenom, refused]
      exact ⟨err, rfl⟩

/-- The coin at the midpoint of a sorted set splits it into the coins below it
and the coins above it. -/
theorem split_at_midpoint {coins : List (CoinOf A)} (ascending : coins.Pairwise (·.denom < ·.denom))
    (m : Nat) (inside : m < coins.length) :
    coins = coins.take m ++ coins.get ⟨m, inside⟩ :: coins.drop (m + 1) ∧
      (∀ c ∈ coins.take m, c.denom < (coins.get ⟨m, inside⟩).denom) ∧
      ∀ c ∈ coins.drop (m + 1), (coins.get ⟨m, inside⟩).denom < c.denom := by
  have whole : coins = coins.take m ++ coins.get ⟨m, inside⟩ :: coins.drop (m + 1) := by
    rw [List.get_eq_getElem, ← List.drop_eq_getElem_cons inside, List.take_append_drop]
  refine ⟨whole, fun c member => ?_, fun c member => ?_⟩
  · rw [whole] at ascending
    exact (List.pairwise_append.mp ascending).2.2 c member _ List.mem_cons_self
  · rw [whole] at ascending
    exact List.rel_of_pairwise_cons (List.pairwise_append.mp ascending).2.1 member

/-- On a set sorted strictly by denom, the search finds what the lookup finds. -/
theorem amountOf_eq_lookup (zero : A) {denom : String} (valid : validateDenom denom = .ok ()) :
    ∀ (coins : List (CoinOf A)), coins.Pairwise (·.denom < ·.denom) →
      amountOf zero coins denom = .ok (lookup zero coins denom)
  | [], _ => by
      rw [amountOf_nil, mustValidateDenom_of_valid valid]
      rfl
  | [coin], _ => by
      rw [amountOf_singleton, mustValidateDenom_of_valid valid]
      by_cases same : coin.denom = denom
      · subst same
        simp [lookup]
      · simp [lookup, same]
  | first :: second :: rest, ascending => by
      -- the search at the midpoint, on the coins below it or above it
      have inside : (first :: second :: rest).length / 2 < (first :: second :: rest).length := by
        simp only [List.length_cons]
        omega
      obtain ⟨whole, below, above⟩ := split_at_midpoint ascending _ inside
      have frontShorter : ((first :: second :: rest).take ((first :: second :: rest).length / 2)).length <
          (first :: second :: rest).length := by
        simp only [List.length_take, List.length_cons]
        omega
      have backShorter : ((first :: second :: rest).drop ((first :: second :: rest).length / 2 + 1)).length <
          (first :: second :: rest).length := by
        simp only [List.length_drop, List.length_cons]
        omega
      have split := congrArg (fun coins => lookup zero coins denom) whole
      rw [amountOf, mustValidateDenom_of_valid valid, ok_bind]
      dsimp only
      split_ifs with lower same
      · rw [amountOf_eq_lookup zero valid _ (ascending.sublist (List.take_sublist _ _)), split,
          lookup_append_of_above zero denom _ _ fun c member => ?_]
        rcases List.mem_cons.mp member with rfl | later
        · exact lower
        · exact lt_trans lower (above c later)
      · rw [split, lookup_append_of_below zero denom _ _ (by rw [same]; exact below), same, lookup_cons_self]
        rfl
      · have higher : (List.get (first :: second :: rest) ⟨_, inside⟩).denom < denom :=
          lt_of_le_of_ne (not_lt.mp lower) (Ne.symm same)
        rw [amountOf_eq_lookup zero valid _ (ascending.sublist (List.drop_sublist _ _)), split,
          lookup_append_of_below zero denom _ _ (fun c member => lt_trans (below c member) higher),
          lookup_cons_of_ne zero denom _ _ (Ne.symm same)]
termination_by coins => coins.length

end CoinOf

theorem amountOf_binary_search (coins : Coins) (decCoins : DecCoins) (denom : String)
    (ascending : coins.Pairwise (·.denom < ·.denom)) (decAscending : decCoins.Pairwise (·.denom < ·.denom))
    (valid : validateDenom denom = .ok ()) :
    (∀ coin ∈ coins, coin.denom = denom → Coins.amountOf coins denom = .ok coin.amount) ∧
    ((∀ coin ∈ coins, coin.denom ≠ denom) → Coins.amountOf coins denom = .ok 0) ∧
    (∀ coin ∈ decCoins, coin.denom = denom → DecCoins.amountOf decCoins denom = .ok coin.amount) ∧
    ((∀ coin ∈ decCoins, coin.denom ≠ denom) → DecCoins.amountOf decCoins denom = .ok ⟨0⟩) := by
  have search := CoinOf.amountOf_eq_lookup (0 : Int) valid coins ascending
  have decSearch := CoinOf.amountOf_eq_lookup (⟨0⟩ : Dec) valid decCoins decAscending
  refine ⟨fun coin member same => ?_, fun absent => ?_, fun coin member same => ?_, fun absent => ?_⟩
  · rw [Coins.amountOf, search, ← same, CoinOf.lookup_of_mem _ ascending member]
  · rw [Coins.amountOf, search, CoinOf.lookup_of_absent _ _ absent]
  · rw [DecCoins.amountOf, decSearch, ← same, CoinOf.lookup_of_mem _ decAscending member]
  · rw [DecCoins.amountOf, decSearch, CoinOf.lookup_of_absent _ _ absent]

/-- The middle coin of three, found at the first probe, and a denom between two
coins, which falls in the gap. -/
theorem amountOf_binary_search_bbb :
    [(⟨"aaa", 1⟩ : Coin), ⟨"bbb", 2⟩, ⟨"ccc", 3⟩].Pairwise (·.denom < ·.denom) ∧
      validateDenom "bbb" = .ok () ∧
      Coins.amountOf [⟨"aaa", 1⟩, ⟨"bbb", 2⟩, ⟨"ccc", 3⟩] "bbb" = .ok 2 := by
  have ascending : [(⟨"aaa", 1⟩ : Coin), ⟨"bbb", 2⟩, ⟨"ccc", 3⟩].Pairwise (·.denom < ·.denom) := by decide
  have valid : validateDenom "bbb" = .ok () := by decide
  refine ⟨ascending, valid, ?_⟩
  exact (amountOf_binary_search [⟨"aaa", 1⟩, ⟨"bbb", 2⟩, ⟨"ccc", 3⟩] [] "bbb" ascending List.Pairwise.nil
    valid).1 ⟨"bbb", 2⟩ (by simp) rfl

end CoreSdk.Types
