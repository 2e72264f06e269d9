import Mathlib.Data.List.Basic

/-!
# Reading a buffer full, and copying into one

`io.ReadFull` from a reader with a finite supply of bytes left, as a
`bytes.Reader` has. It fills the whole buffer when the supply lasts. It returns
`io.EOF` when the supply is empty, and `io.ErrUnexpectedEOF` when the supply
runs out part way; in that case the bytes it did read are at the front of the
buffer. `copy(dst, src)` writes the elements of `src` that fit and leaves the
rest of `dst`.

Nothing here names the program being modelled.
-/

namespace Go.Io

set_option autoImplicit false

/-- The errors of `io.ReadFull`. -/
inductive ReadError where
  | eof
  | unexpectedEOF
  deriving DecidableEq, Repr

/-- `io.ReadFull(r, buf)` with `len(buf) = n`, from a reader that has `supply`
left: the bytes read into the front of `buf`, the error, and what the reader
has left. -/
def readFull (supply : List UInt8) (n : Nat) : List UInt8 × Option ReadError × List UInt8 :=
  if n ≤ supply.length then (supply.take n, none, supply.drop n)
  else if supply = [] then ([], some .eof, [])
  else (supply, some .unexpectedEOF, [])

/-- `copy(dst, src)`. -/
def copy {α : Type} (dst src : List α) : List α := src.take dst.length ++ dst.drop src.length

@[simp] theorem length_copy {α : Type} (dst src : List α) : (copy dst src).length = dst.length := by
  simp only [copy, List.length_append, List.length_take, List.length_drop]
  omega

end Go.Io
