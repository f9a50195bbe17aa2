import Mathlib.Data.List.Basic
import Mathlib.Data.Nat.Basic

/-!
# Reading a byte array at an index

A view of memory that is `data.length` bytes long. A read past its end has no result, so
"every read is inside the buffer" is a statement about a result: it is `some`.
-/

namespace ByteView

/-- The `n` bytes from index `i` on, read one after the other. -/
def readBytes (data : List UInt8) : ℕ → ℕ → Option (List UInt8)
  | _, 0 => some []
  | i, n + 1 => do
    let b ← data[i]?
    let bs ← readBytes data (i + 1) n
    return b :: bs

/-- A read inside the buffer. -/
theorem readBytes_of_le (data : List UInt8) {i n : ℕ} (h : i + n ≤ data.length) :
    readBytes data i n = some ((data.drop i).take n) := by
  induction n generalizing i with
  | zero => rfl
  | succ n ih =>
    have hi : i < data.length := by omega
    rw [readBytes, List.getElem?_eq_getElem hi, ih (by omega), List.drop_eq_getElem_cons hi,
      List.take_succ_cons]
    rfl

/-- A read of a segment of the buffer gives the segment. -/
theorem readBytes_segment {data bs : List UInt8} {i n : ℕ} (p q : List UInt8)
    (hdata : data = p ++ bs ++ q) (hi : i = p.length) (hn : n = bs.length) :
    readBytes data i n = some bs := by
  subst hdata hi hn
  have hle : p.length + bs.length ≤ (p ++ bs ++ q).length := by
    rw [List.length_append, List.length_append]
    omega
  rw [readBytes_of_le _ hle, List.append_assoc, List.drop_left, List.take_left]

/-- A byte of the buffer. -/
theorem getElem?_segment {data : List UInt8} {b : UInt8} {i : ℕ} (p q : List UInt8)
    (hdata : data = p ++ b :: q) (hi : i = p.length) : data[i]? = some b := by
  subst hdata hi
  rw [List.getElem?_append_right (Nat.le_refl _), Nat.sub_self]
  rfl

end ByteView
