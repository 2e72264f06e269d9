import Mathlib.Data.List.Basic
import Mathlib.Order.Basic

/-!
# Outcomes of a Go call

A Go function either returns normally, returns a non-nil `error`, or panics at
run time (an index out of range, a failed type assertion, an explicit
`panic`). The models of this development return `Result α`, an `Except` over
`Fault`, so that a statement can tell a returned error from a panic. Slice
indexing `xs[i]` is `index xs i`: it panics exactly when Go's bounds check
fails, with Go's run-time message.

Nothing here names the program being modelled; the lemmas are the rules the
models use to step through `do` blocks.
-/

namespace Go

set_option autoImplicit false

/-- How a Go call ends when it does not return normally. -/
inductive Fault where
  | error (message : String)
  | panic (message : String)
  deriving DecidableEq, Repr

/-- The outcome of a modelled Go call. -/
abbrev Result (α : Type) := Except Fault α

/-- `return ..., errors.New(message)`. -/
def fail {α : Type} (message : String) : Result α := .error (.error message)

/-- `panic(message)`. -/
def panicWith {α : Type} (message : String) : Result α := .error (.panic message)

/-- A run that panicked, whatever its message. -/
def Panicked {α : Type} (result : Result α) : Prop := ∃ message, result = panicWith message

/-- The run-time message of a field read through a nil pointer. -/
def nilDereference : String := "runtime error: invalid memory address or nil pointer dereference"

/-- The run-time message of a failed bounds check; a negative index is reported
without the length. -/
def indexOutOfRange (i : Int) (length : Nat) : String :=
  if i < 0 then "runtime error: index out of range [" ++ toString i ++ "]"
  else "runtime error: index out of range [" ++ toString i ++ "] with length " ++ toString length

/-- Go's `xs[i]`: the element, or a panic when `i < 0` or `len(xs) ≤ i`. -/
def index {α : Type} (xs : List α) (i : Int) : Result α :=
  if 0 ≤ i then
    match xs[i.toNat]? with
    | some x => .ok x
    | none => panicWith (indexOutOfRange i xs.length)
  else panicWith (indexOutOfRange i xs.length)

/-- The run-time message of a failed bounds check on `xs[low:]`. -/
def sliceOutOfRange (low : Int) (length : Nat) : String :=
  if low < 0 then "runtime error: slice bounds out of range [" ++ toString low ++ ":]"
  else "runtime error: slice bounds out of range [" ++ toString low ++ ":" ++ toString length ++ "]"

/-- Go's `xs[low:]`: a panic when `low < 0` or `len(xs) < low`. -/
def sliceFrom {α : Type} (xs : List α) (low : Int) : Result (List α) :=
  if 0 ≤ low ∧ low ≤ xs.length then .ok (xs.drop low.toNat)
  else panicWith (sliceOutOfRange low xs.length)

/-- Go's `xs[low:high]`, with the capacity of a slice taken to be its length. -/
def slice {α : Type} (xs : List α) (low high : Int) : Result (List α) :=
  -- a negative bound is reported without the other one
  if high < 0 then panicWith ("runtime error: slice bounds out of range [:" ++ toString high ++ "]")
  else if xs.length < high then
    panicWith ("runtime error: slice bounds out of range [:" ++ toString high ++ "] with capacity " ++
      toString xs.length)
  else if low < 0 then panicWith ("runtime error: slice bounds out of range [" ++ toString low ++ ":]")
  else if high < low then
    panicWith ("runtime error: slice bounds out of range [" ++ toString low ++ ":" ++
      toString high ++ "]")
  else .ok ((xs.drop low.toNat).take (high - low).toNat)

/-- Go's `a / b` on `int`: rounded towards zero, and a panic when `b = 0`. -/
def quot (a b : Int) : Result Int :=
  if b = 0 then panicWith "runtime error: integer divide by zero" else .ok (a.tdiv b)

/-- Go's assignment `xs[i] = x`: the updated slice, or a panic out of range. -/
def assign {α : Type} (xs : List α) (i : Int) (x : α) : Result (List α) :=
  if 0 ≤ i ∧ i < xs.length then .ok (xs.set i.toNat x)
  else panicWith (indexOutOfRange i xs.length)

/-- Go's `copy(s[dst:], s[src:])` on one slice. The shorter of the two lengths is
moved, and the elements are read as if before any is written: `copy` handles
overlapping slices as `memmove` does. -/
def copyWithin {α : Type} (s : List α) (dst src : Int) : Result (List α) := do
  let target ← sliceFrom s dst
  let source ← sliceFrom s src
  let moved := min target.length source.length
  pure (s.take dst.toNat ++ source.take moved ++ target.drop moved)

/-- Go's `copy(xs[low:high], src)`, with the bounds check of the slice
expression: `xs` with the first `min(high - low, len(src))` places of the window
taken from `src`. -/
def copyIntoSlice {α : Type} (xs : List α) (low high : Int) (src : List α) : Result (List α) := do
  let window ← slice xs low high
  let copied := min window.length src.length
  pure (xs.take low.toNat ++ src.take copied ++ xs.drop (low.toNat + copied))

/-- Go's `make([]T, len, cap)` for a length and capacity known only at run time: a
panic when the length exceeds the capacity, else `len` zero values. -/
def makeSlice {α : Type} (zero : α) (len cap : Nat) : Result (List α) :=
  if cap < len then panicWith "runtime error: makeslice: cap out of range" else .ok (List.replicate len zero)

/-- One upper-case hexadecimal digit. -/
def upperHexDigit (d : Nat) : Char :=
  if d < 10 then Char.ofNat (48 + d) else Char.ofNat (55 + d)

/-- The `%X` verb of `fmt` on a byte slice: two upper-case hexadecimal digits a byte. -/
def formatHex (bytes : List UInt8) : String :=
  String.ofList (bytes.flatMap fun b => [upperHexDigit (b.toNat / 16), upperHexDigit (b.toNat % 16)])

section Rules

variable {α β : Type}

@[simp] theorem ok_bind {ε : Type} (a : α) (f : α → Except ε β) : (Except.ok a >>= f) = f a := rfl

@[simp] theorem error_bind (fault : Fault) (f : α → Result β) :
    ((Except.error fault : Result α) >>= f) = .error fault := rfl

@[simp] theorem fail_bind (message : String) (f : α → Result β) :
    ((fail message : Result α) >>= f) = fail message := rfl

@[simp] theorem panicWith_bind (message : String) (f : α → Result β) :
    ((panicWith message : Result α) >>= f) = panicWith message := rfl

@[simp] theorem pure_eq_ok (a : α) : (pure a : Result α) = .ok a := rfl

theorem bind_eq_ok {ε : Type} {x : Except ε α} {f : α → Except ε β} {b : β} :
    x >>= f = .ok b ↔ ∃ a, x = .ok a ∧ f a = .ok b := by
  cases x <;> simp [bind, Except.bind]

theorem bind_eq_error {x : Result α} {f : α → Result β} {fault : Fault} :
    x >>= f = .error fault ↔ x = .error fault ∨ ∃ a, x = .ok a ∧ f a = .error fault := by
  cases x <;> simp [bind, Except.bind]

@[simp] theorem fail_ne_ok (message : String) (a : α) : (fail message : Result α) ≠ .ok a := by
  simp [fail]

@[simp] theorem panicWith_ne_ok (message : String) (a : α) : (panicWith message : Result α) ≠ .ok a := by
  simp [panicWith]

@[simp] theorem panicWith_ne_fail (message other : String) : (panicWith message : Result α) ≠ fail other := by
  simp [panicWith, fail]

/-- Calls that never return an error, chained, return none. -/
theorem bind_ne_fail {x : Result α} {f : α → Result β} (first : ∀ message, x ≠ fail message)
    (rest : ∀ a message, f a ≠ fail message) (message : String) : x >>= f ≠ fail message := by
  cases x with
  | error fault =>
      -- the fault passes through unchanged, at the type of the chain
      rw [error_bind]
      intro failed
      have sameFault : fault = .error message := Except.error.inj failed
      rw [sameFault] at first
      exact first message rfl
  | ok a =>
      rw [ok_bind]
      exact rest a message

theorem panicked_bind {x : Result α} {f : α → Result β} (panicked : Panicked x) :
    Panicked (x >>= f) := by
  obtain ⟨message, same⟩ := panicked
  exact ⟨message, by rw [same, panicWith_bind]⟩

theorem not_panicked_ok (a : α) : ¬Panicked (Except.ok a : Result α) := by
  rintro ⟨message, same⟩
  exact panicWith_ne_ok message a same.symm

theorem not_panicked_fail (message : String) : ¬Panicked (fail message : Result α) := by
  rintro ⟨other, same⟩
  simp [fail, panicWith] at same

theorem panicked_map_iff {x : Result α} {f : α → β} : Panicked (x.map f) ↔ Panicked x := by
  cases x with
  | error fault => simp [Panicked, Except.map, panicWith]
  | ok a => exact iff_of_false (not_panicked_ok _) (not_panicked_ok a)

end Rules

section Index

variable {α : Type}

@[simp] theorem index_natCast_of_lt (xs : List α) (n : Nat) (bound : n < xs.length) :
    index xs n = .ok xs[n] := by
  simp [index, List.getElem?_eq_getElem bound]

theorem index_natCast_of_le (xs : List α) (n : Nat) (bound : xs.length ≤ n) :
    index xs n = panicWith (indexOutOfRange n xs.length) := by
  simp [index, List.getElem?_eq_none bound]

/-- Indexing never returns an error value: it yields the element or panics. -/
theorem index_ne_fail (xs : List α) (i : Int) (message : String) : index xs i ≠ fail message := by
  unfold index
  split_ifs
  · split <;> simp [fail, panicWith]
  · simp [fail, panicWith]

theorem index_eq_ok {xs : List α} {i : Int} {x : α} (found : index xs i = .ok x) :
    ∃ n : Nat, i = n ∧ xs[n]? = some x := by
  unfold index at found
  split_ifs at found with nonneg
  · refine ⟨i.toNat, (Int.toNat_of_nonneg nonneg).symm, ?_⟩
    cases lookup : xs[i.toNat]? with
    | none => simp [lookup, panicWith] at found
    | some y => simpa [lookup] using found
  · simp [panicWith] at found

@[simp] theorem assign_natCast_of_lt (xs : List α) (n : Nat) (x : α) (bound : n < xs.length) :
    assign xs n x = .ok (xs.set n x) := by
  simp [assign, bound]

/-- Assignment never returns an error value: it updates the slice or panics. -/
theorem assign_ne_fail (xs : List α) (i : Int) (x : α) (message : String) : assign xs i x ≠ fail message := by
  unfold assign
  split_ifs <;> simp [fail, panicWith]

theorem assign_eq_ok {xs ys : List α} {i : Int} {x : α} (assigned : assign xs i x = .ok ys) :
    ∃ n : Nat, i = n ∧ n < xs.length ∧ ys = xs.set n x := by
  unfold assign at assigned
  split_ifs at assigned with inside
  · exact ⟨i.toNat, by omega, by omega, (Except.ok.inj assigned).symm⟩
  · simp [panicWith] at assigned

theorem slice_natCast (xs : List α) (low high : Nat) (ordered : low ≤ high)
    (bound : high ≤ xs.length) :
    slice xs low high = .ok ((xs.drop low).take (high - low)) := by
  rw [slice, if_neg (by omega), if_neg (by omega), if_neg (by omega), if_neg (by omega), Int.toNat_natCast,
    show ((high : Int) - low).toNat = high - low by omega]

/-- Copying a slice that fills the window exactly. -/
theorem copyIntoSlice_natCast (xs src : List α) (low high : Nat) (ordered : low ≤ high)
    (bound : high ≤ xs.length) (fills : src.length = high - low) :
    copyIntoSlice xs low high src = .ok (xs.take low ++ src ++ xs.drop high) := by
  rw [copyIntoSlice, slice_natCast xs low high ordered bound, ok_bind, Int.toNat_natCast]
  have copied : min ((xs.drop low).take (high - low)).length src.length = high - low := by
    simp only [List.length_take, List.length_drop]
    omega
  rw [copied]
  show pure (xs.take low ++ src.take (high - low) ++ xs.drop (low + (high - low))) = _
  rw [List.take_of_length_le (show src.length ≤ high - low by omega),
    show low + (high - low) = high by omega]
  rfl

theorem sliceFrom_natCast_of_le (xs : List α) (n : Nat) (bound : n ≤ xs.length) :
    sliceFrom xs n = .ok (xs.drop n) := by
  simp [sliceFrom, bound]

/-- Slicing off the front of a concatenation. -/
theorem sliceFrom_append (xs ys : List α) : sliceFrom (xs ++ ys) xs.length = .ok ys := by
  rw [sliceFrom_natCast_of_le _ _ (by simp), List.drop_left]

theorem slice_append (xs ys : List α) : slice (xs ++ ys) 0 xs.length = .ok xs := by
  have sliced := slice_natCast (xs ++ ys) 0 xs.length (Nat.zero_le _) (by simp)
  rwa [Int.natCast_zero, List.drop_zero, Nat.sub_zero, List.take_left] at sliced

theorem sliceFrom_cons_one (x : α) (xs : List α) : sliceFrom (x :: xs) 1 = .ok xs :=
  sliceFrom_append [x] xs

/-- `xs[:high]` with a negative bound panics. -/
theorem slice_of_neg (xs : List α) (low high : Int) (negative : high < 0) :
    slice xs low high = panicWith ("runtime error: slice bounds out of range [:" ++ toString high ++ "]") := by
  rw [slice, if_pos negative]

theorem sliceFrom_eq_ok {xs ys : List α} {low : Int} (sliced : sliceFrom xs low = .ok ys) :
    ys = xs.drop low.toNat ∧ 0 ≤ low ∧ low ≤ xs.length := by
  unfold sliceFrom at sliced
  split_ifs at sliced with inside
  · exact ⟨(Except.ok.inj sliced).symm, inside⟩
  · exact absurd sliced (panicWith_ne_ok _ _)

theorem slice_eq_ok {xs ys : List α} {low high : Int} (sliced : slice xs low high = .ok ys) :
    ys = (xs.drop low.toNat).take (high - low).toNat := by
  unfold slice at sliced
  split_ifs at sliced
  all_goals first
    | exact absurd sliced (panicWith_ne_ok _ _)
    | exact (Except.ok.inj sliced).symm

/-- Shifting the tail of a slice one place to the right, the idiom
`s = append(s, filler); copy(s[k+1:], s[k:])`: the element at `k` is now doubled. -/
theorem copyWithin_shift (xs : List α) (filler : α) (k : Nat) (inside : k < xs.length) :
    copyWithin (xs ++ [filler]) ((k : Int) + 1) k = .ok (xs.take (k + 1) ++ xs.drop k) := by
  have grown : (xs ++ [filler]).length = xs.length + 1 := by simp
  have target := sliceFrom_natCast_of_le (xs ++ [filler]) (k + 1) (by omega)
  have source := sliceFrom_natCast_of_le (xs ++ [filler]) k (by omega)
  rw [show ((k + 1 : Nat) : Int) = (k : Int) + 1 by omega] at target
  simp only [copyWithin, target, source, ok_bind, pure_eq_ok, Except.ok.injEq,
    List.length_drop, grown]
  rw [show min (xs.length + 1 - (k + 1)) (xs.length + 1 - k) = xs.length - k by omega]
  have front : (xs ++ [filler]).take (k + 1) = xs.take (k + 1) :=
    List.take_append_of_le_length (by omega)
  have back : ((xs ++ [filler]).drop k).take (xs.length - k) = xs.drop k := by
    rw [List.drop_append_of_le_length (by omega), List.take_append_of_le_length (by simp)]
    exact List.take_of_length_le (by simp)
  have rest : ((xs ++ [filler]).drop (k + 1)).drop (xs.length - k) = [] := by
    simp only [List.drop_drop]
    exact List.drop_eq_nil_of_le (by omega)
  rw [show ((k : Int) + 1).toNat = k + 1 by omega, front, back, rest, List.append_nil]

/-- Writing the new element into the doubled place completes an insertion. -/
theorem set_shift_eq_insertIdx (xs : List α) (k : Nat) (x : α) (inside : k < xs.length) :
    (xs.take (k + 1) ++ xs.drop k).set k x = xs.insertIdx k x := by
  apply List.ext_getElem?
  intro j
  rw [List.getElem?_set, List.getElem?_insertIdx]
  grind

end Index

section Loops

variable {α β : Type}

/-- A Go `for` loop over a list whose body never fails computes the pure fold. -/
theorem foldlM_eq_ok_foldl (step : β → α → Result β) (pureStep : β → α → β) (xs : List α)
    (start : β) (total : ∀ acc x, x ∈ xs → step acc x = .ok (pureStep acc x)) :
    xs.foldlM step start = .ok (xs.foldl pureStep start) := by
  induction xs generalizing start with
  | nil => rfl
  | cons x xs induction =>
      simp only [List.foldlM_cons, List.foldl_cons]
      rw [total start x (by simp), ok_bind]
      exact induction _ (fun acc y member => total acc y (by simp [member]))

/-- A loop that returned normally ran every iteration to completion. -/
theorem foldlM_ok_eq_foldl (step : β → α → Result β) (pureStep : β → α → β) (xs : List α)
    (start last : β)
    (agrees : ∀ acc x next, x ∈ xs → step acc x = .ok next → next = pureStep acc x)
    (finished : xs.foldlM step start = .ok last) : last = xs.foldl pureStep start := by
  induction xs generalizing start with
  | nil => cases finished; rfl
  | cons x xs induction =>
      simp only [List.foldlM_cons] at finished
      obtain ⟨middle, first, rest⟩ := bind_eq_ok.mp finished
      have same := agrees start x middle (by simp) first
      subst same
      exact induction _ (fun acc y next member => agrees acc y next (by simp [member])) rest

/-- The loop rule: an invariant of the accumulator and the elements done so far,
kept by every iteration that returns, holds when the loop returns. -/
theorem foldlM_invariant (step : β → α → Result β) (inv : List α → β → Prop) (xs : List α)
    {start last : β} (initial : inv [] start)
    (keeps : ∀ done x rest acc next, xs = done ++ x :: rest → inv done acc → step acc x = .ok next →
      inv (done ++ [x]) next)
    (finished : xs.foldlM step start = .ok last) : inv xs last := by
  -- the loop over what is left, with `done` behind it
  suffices fromSuffix : ∀ (suffix done : List α) (acc : β), xs = done ++ suffix → inv done acc →
      suffix.foldlM step acc = .ok last → inv xs last from
    fromSuffix xs [] start rfl initial finished
  intro suffix
  induction suffix with
  | nil =>
      intro done acc split kept returned
      cases returned
      rwa [split, List.append_nil]
  | cons x rest induction =>
      intro done acc split kept returned
      rw [List.foldlM_cons] at returned
      obtain ⟨next, stepped, looped⟩ := bind_eq_ok.mp returned
      exact induction (done ++ [x]) next (by simp [split]) (keeps done x rest acc next split kept stepped) looped

/-- A loop each of whose iterations returns from an accumulator the invariant
allows, keeping it, returns, and its result satisfies the invariant. -/
theorem foldlM_ok_of_progress (step : β → α → Result β) (inv : List α → β → Prop) (xs : List α)
    {start : β} (initial : inv [] start)
    (progress : ∀ done x rest acc, xs = done ++ x :: rest → inv done acc →
      ∃ next, step acc x = .ok next ∧ inv (done ++ [x]) next) :
    ∃ last, xs.foldlM step start = .ok last ∧ inv xs last := by
  suffices fromSuffix : ∀ (suffix done : List α) (acc : β), xs = done ++ suffix → inv done acc →
      ∃ last, suffix.foldlM step acc = .ok last ∧ inv xs last from
    fromSuffix xs [] start rfl initial
  intro suffix
  induction suffix with
  | nil =>
      intro done acc split kept
      exact ⟨acc, rfl, by rwa [split, List.append_nil]⟩
  | cons x rest induction =>
      intro done acc split kept
      obtain ⟨next, stepped, keptNext⟩ := progress done x rest acc split kept
      rw [List.foldlM_cons, stepped, ok_bind]
      exact induction (done ++ [x]) next (by simp [split]) keptNext

/-- A loop none of whose iterations panics does not panic. -/
theorem foldlM_not_panicked (step : β → α → Result β) (xs : List α) (start : β)
    (noPanic : ∀ acc x, x ∈ xs → ¬Panicked (step acc x)) : ¬Panicked (xs.foldlM step start) := by
  induction xs generalizing start with
  | nil => exact not_panicked_ok start
  | cons x xs induction =>
      rw [List.foldlM_cons]
      cases first : step start x with
      | error fault =>
          rintro ⟨message, same⟩
          exact noPanic start x List.mem_cons_self ⟨message, by rw [first]; exact same⟩
      | ok middle =>
          rw [ok_bind]
          exact induction middle fun acc y member => noPanic acc y (List.mem_cons_of_mem x member)

/-- A loop whose body only returns or panics panics as soon as one iteration does. -/
theorem foldlM_panicked (step : β → α → Result β) (xs : List α) (start : β)
    (noError : ∀ acc x message, x ∈ xs → step acc x ≠ fail message)
    (someStep : ∃ x ∈ xs, ∀ acc, Panicked (step acc x)) :
    Panicked (xs.foldlM step start) := by
  induction xs generalizing start with
  | nil =>
      obtain ⟨x, member, _⟩ := someStep
      simp at member
  | cons x xs induction =>
      simp only [List.foldlM_cons]
      cases first : step start x with
      | error fault =>
          cases fault with
          | error message => exact absurd first (noError start x message (by simp))
          | panic message => exact ⟨message, rfl⟩
      | ok middle =>
          rw [ok_bind]
          obtain ⟨y, member, panics⟩ := someStep
          rcases List.mem_cons.mp member with same | later
          · subst same
            obtain ⟨message, fault⟩ := panics start
            rw [fault] at first
            simp [panicWith] at first
          · exact induction middle (fun acc z message inTail => noError acc z message (by simp [inTail]))
              ⟨y, later, panics⟩

/-- A loop that builds a slice with `append` and whose body never fails. -/
theorem mapM_eq_ok_map (step : α → Result β) (pureStep : α → β) (xs : List α)
    (total : ∀ x ∈ xs, step x = .ok (pureStep x)) : xs.mapM step = .ok (xs.map pureStep) := by
  induction xs with
  | nil => rfl
  | cons x xs induction =>
      rw [List.mapM_cons, total x List.mem_cons_self, ok_bind,
        induction (fun y member => total y (List.mem_cons_of_mem x member))]
      rfl

/-- Each element a `mapM` loop returned normally came from one of its inputs. -/
theorem mem_of_mapM_eq_ok (step : α → Result β) (xs : List α) (ys : List β)
    (done : xs.mapM step = .ok ys) : ∀ y ∈ ys, ∃ x ∈ xs, step x = .ok y := by
  induction xs generalizing ys with
  | nil =>
      cases done
      simp
  | cons x xs induction =>
      rw [List.mapM_cons] at done
      obtain ⟨first, stepped, afterFirst⟩ := bind_eq_ok.mp done
      obtain ⟨rest, looped, returned⟩ := bind_eq_ok.mp afterFirst
      cases returned
      intro y member
      rcases List.mem_cons.mp member with rfl | inRest
      · exact ⟨x, List.mem_cons_self, stepped⟩
      · obtain ⟨source, inXs, result⟩ := induction rest looped y inRest
        exact ⟨source, List.mem_cons_of_mem x inXs, result⟩

/-- The loop `for _, x := range xs { if !test(x) { return false } }; return true`,
whose test returns on every element, computes `all`. -/
theorem allM_eq_ok_all (test : α → Result Bool) (pureTest : α → Bool) (xs : List α)
    (total : ∀ x ∈ xs, test x = .ok (pureTest x)) : xs.allM test = .ok (xs.all pureTest) := by
  induction xs with
  | nil => rfl
  | cons x xs induction =>
      rw [List.allM_cons, total x List.mem_cons_self, ok_bind, List.all_cons]
      -- the loop returns at the first element that fails, as `all` does
      cases pureTest x with
      | false => rfl
      | true => exact induction fun y member => total y (List.mem_cons_of_mem x member)

/-- The loop `for _, x := range xs { if test(x) { return true } }; return false`,
whose test returns on every element, computes `any`. -/
theorem anyM_eq_ok_any (test : α → Result Bool) (pureTest : α → Bool) (xs : List α)
    (total : ∀ x ∈ xs, test x = .ok (pureTest x)) : xs.anyM test = .ok (xs.any pureTest) := by
  induction xs with
  | nil => rfl
  | cons x xs induction =>
      rw [List.anyM_cons, total x List.mem_cons_self, ok_bind, List.any_cons]
      cases pureTest x with
      | true => rfl
      | false => exact induction fun y member => total y (List.mem_cons_of_mem x member)

/-- A loop that returns at the first failing test ends as the test of `x` does
when every element before `x` passed. -/
theorem allM_append_cons_of_error (test : α → Result Bool) (front : List α) (x : α) (back : List α)
    {fault : Fault} (passed : ∀ y ∈ front, test y = .ok true) (stopped : test x = .error fault) :
    (front ++ x :: back).allM test = .error fault := by
  induction front with
  | nil =>
      rw [List.nil_append, List.allM_cons, stopped]
      rfl
  | cons y front induction =>
      rw [List.cons_append, List.allM_cons, passed y List.mem_cons_self, ok_bind, if_pos rfl]
      exact induction fun z member => passed z (List.mem_cons_of_mem y member)

/-- The loop `for i, y := range ys { dst[i] = f(y) }` over indices from `n`
writes the images of `ys` into `dst` from `n` on and leaves the rest. -/
theorem foldl_set_zipIdx (f : α → β) (ys : List α) (n : Nat) (init : List β)
    (long : n + ys.length ≤ init.length) :
    (ys.zipIdx n).foldl (fun acc pair => acc.set pair.2 (f pair.1)) init =
      init.take n ++ ys.map f ++ init.drop (n + ys.length) := by
  induction ys generalizing n init with
  | nil => simp
  | cons y ys induction =>
    rw [List.zipIdx_cons, List.foldl_cons]
    have below : n < init.length := by simp only [List.length_cons] at long; omega
    have shorter : (n + 1) + ys.length ≤ (init.set n (f y)).length := by
      rw [List.length_set]
      simp only [List.length_cons] at long
      omega
    rw [induction (n + 1) _ shorter, List.set_eq_take_append_cons_drop, if_pos below]
    have front : (init.take n).length = n := by simp; omega
    have keep : (init.take n).take (n + 1) = init.take n := List.take_of_length_le (by omega)
    have gone : (init.take n).drop (n + 1 + ys.length) = [] := List.drop_eq_nil_of_le (by omega)
    have after : (f y :: init.drop (n + 1)).drop (n + 1 + ys.length - n) = init.drop (n + (ys.length + 1)) := by
      rw [show n + 1 + ys.length - n = ys.length + 1 by omega, List.drop_succ_cons, List.drop_drop]
      congr 1
      omega
    simp [List.take_append, List.drop_append, front, keep, gone, after]

/-- The loop `for i, y := range ys { dst[i] = f(y) }` whose conversion `f`
returns on every element: the writes stay inside `dst`, which the pure loop
describes. -/
theorem foldlM_assign_zipIdx (f : α → Result β) (g : α → β) (ys : List α) (n : Nat) (init : List β)
    (long : n + ys.length ≤ init.length) (total : ∀ y ∈ ys, f y = .ok (g y)) :
    (ys.zipIdx n).foldlM (fun acc pair => do let b ← f pair.1; assign acc pair.2 b) init =
      .ok ((ys.zipIdx n).foldl (fun acc pair => acc.set pair.2 (g pair.1)) init) := by
  induction ys generalizing n init with
  | nil => rfl
  | cons y ys induction =>
    have below : n < init.length := by simp only [List.length_cons] at long; omega
    have written : assign init n (g y) = .ok (init.set n (g y)) := assign_natCast_of_lt init n (g y) below
    rw [List.zipIdx_cons, List.foldlM_cons, List.foldl_cons]
    simp only [total y List.mem_cons_self, ok_bind, written]
    apply induction (n + 1) _ (by rw [List.length_set]; simp only [List.length_cons] at long; omega)
    exact fun other member => total other (List.mem_cons_of_mem y member)

end Loops

end Go
