import Mathlib.Data.List.Basic

/-!
# Pieces of a list

A list cut into pieces of one size, of which the last may be shorter.
-/

namespace Chunks

variable {α : Type*}

/-- The pieces of `n` elements; a piece has at least one, so as many turns as there are elements are
enough. -/
def chunksAux (n : ℕ) : ℕ → List α → List (List α)
  | 0, _ => []
  | _, [] => []
  | fuel + 1, l => l.take n :: chunksAux n fuel (l.drop n)

def chunks (n : ℕ) (l : List α) : List (List α) := chunksAux n l.length l

variable {n fuel : ℕ} {l piece : List α}

theorem flatten_chunksAux (hn : 0 < n) (hfuel : l.length ≤ fuel) :
    (chunksAux n fuel l).flatten = l := by
  induction fuel generalizing l with
  | zero =>
    rw [List.eq_nil_of_length_eq_zero (Nat.le_zero.mp hfuel)]
    rfl
  | succ fuel ih =>
    cases l with
    | nil => rfl
    | cons a l =>
      have hdrop : ((a :: l).drop n).length ≤ fuel := by
        rw [List.length_drop]
        omega
      show ((a :: l).take n :: chunksAux n fuel ((a :: l).drop n)).flatten = a :: l
      rw [List.flatten_cons, ih hdrop, List.take_append_drop]

theorem flatten_chunks (hn : 0 < n) (l : List α) : (chunks n l).flatten = l :=
  flatten_chunksAux hn (Nat.le_refl _)

theorem length_le_of_mem_chunksAux (h : piece ∈ chunksAux n fuel l) : piece.length ≤ n := by
  induction fuel generalizing l with
  | zero => cases h
  | succ fuel ih =>
    cases l with
    | nil => cases h
    | cons a l =>
      have hcons : piece ∈ (a :: l).take n :: chunksAux n fuel ((a :: l).drop n) := h
      rw [List.mem_cons] at hcons
      cases hcons with
      | inl hfirst =>
        rw [hfirst]
        exact List.length_take_le _ _
      | inr hrest => exact ih hrest

theorem length_le_of_mem_chunks (h : piece ∈ chunks n l) :
    piece.length ≤ n :=
  length_le_of_mem_chunksAux h

/-- The first piece. -/
theorem exists_chunks_eq_cons (hl : l ≠ []) (n : ℕ) :
    ∃ rest, chunks n l = l.take n :: rest := by
  cases l with
  | nil => exact absurd rfl hl
  | cons a l => exact ⟨_, rfl⟩

/-- A list that is not longer than a piece. -/
theorem chunks_of_length_le (hl : l ≠ []) (h : l.length ≤ n) :
    chunks n l = [l] := by
  cases l with
  | nil => exact absurd rfl hl
  | cons a l =>
    show (a :: l).take n :: chunksAux n l.length ((a :: l).drop n) = [a :: l]
    rw [List.take_of_length_le h, List.drop_eq_nil_of_le h]
    cases l <;> rfl

end Chunks
