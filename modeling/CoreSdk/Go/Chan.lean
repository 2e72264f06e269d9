import Mathlib.Data.List.Basic

/-!
# Buffered channels

A channel made with `make(chan T, n)`, `n ≥ 1`, as its capacity and the values
in its buffer. `ch <- v` blocks while the buffer holds `n` values and `<-ch`
while it holds none; a step that blocks is `none`, the goroutine waiting.
Only buffered channels are modelled: a send on an unbuffered channel waits for
a receiver, which a buffer of capacity zero does not say.

Nothing here names the program being modelled.
-/

namespace Go

set_option autoImplicit false

/-- A buffered channel: its capacity and the values in its buffer, oldest first. -/
structure Chan (α : Type) where
  cap : Nat
  buf : List α
  deriving DecidableEq, Repr

namespace Chan

variable {α : Type}

/-- `make(chan T, cap)`. -/
def make (cap : Nat) : Chan α := ⟨cap, []⟩

/-- `ch <- v`, or `none` while the buffer is full. -/
def send (ch : Chan α) (v : α) : Option (Chan α) :=
  if ch.buf.length < ch.cap then some ⟨ch.cap, ch.buf ++ [v]⟩ else none

/-- `<-ch`, or `none` while the buffer is empty. -/
def recv (ch : Chan α) : Option (α × Chan α) :=
  match ch.buf with
  | [] => none
  | v :: rest => some (v, ⟨ch.cap, rest⟩)

theorem send_eq_none_iff (ch : Chan α) (v : α) : ch.send v = none ↔ ch.cap ≤ ch.buf.length := by
  unfold send
  split_ifs with room
  · simp only [false_iff, Nat.not_le]
    exact room
  · simp only [true_iff]
    exact Nat.le_of_not_lt room

/-- A send that goes through had room, and adds one value. -/
theorem of_send {ch ch' : Chan α} {v : α} (sent : ch.send v = some ch') :
    ch.buf.length < ch.cap ∧ ch'.cap = ch.cap ∧ ch'.buf.length = ch.buf.length + 1 := by
  unfold send at sent
  split_ifs at sent with room
  cases sent
  exact ⟨room, rfl, by simp⟩

/-- A send that goes through puts the value behind the buffer. -/
theorem buf_of_send {ch ch' : Chan α} {v : α} (sent : ch.send v = some ch') : ch'.buf = ch.buf ++ [v] := by
  unfold send at sent
  split_ifs at sent
  cases sent
  rfl

theorem recv_eq_none_iff (ch : Chan α) : ch.recv = none ↔ ch.buf = [] := by
  unfold recv
  split <;> simp_all

/-- A receive that goes through takes the head of the buffer. -/
theorem buf_of_recv {ch ch' : Chan α} {v : α} (received : ch.recv = some (v, ch')) : ch.buf = v :: ch'.buf := by
  unfold recv at received
  split at received
  · cases received
  · rename_i rest buffered
    cases received
    exact buffered

/-- A receive that goes through takes one value. -/
theorem of_recv {ch ch' : Chan α} {v : α} (received : ch.recv = some (v, ch')) :
    ch'.cap = ch.cap ∧ ch'.buf.length + 1 = ch.buf.length := by
  unfold recv at received
  split at received
  · cases received
  · rename_i rest buffered
    cases received
    exact ⟨rfl, by simp [buffered]⟩

end Chan

end Go
