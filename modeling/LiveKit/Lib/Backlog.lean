import Mathlib.Algebra.Order.BigOperators.Group.List
import Mathlib.Algebra.Order.Ring.Nat

/-!
# The last part of a list of sized items

Items go one after the other into a buffer that is emptied from the front, byte by byte. When `n`
bytes are left in the buffer, these are the last `n` bytes of all that went in, and the items that
have some of them form a suffix of the list of all items: the backlog.
-/

namespace Backlog

variable {α : Type} (size : α → ℕ)

/-- The size of all items together. -/
def total (l : List α) : ℕ := (l.map size).sum

@[simp] theorem total_nil : total size [] = 0 := rfl

@[simp] theorem total_cons (a : α) (l : List α) : total size (a :: l) = size a + total size l :=
  List.sum_cons

@[simp] theorem total_append (l l' : List α) :
    total size (l ++ l') = total size l + total size l' := by
  unfold total
  rw [List.map_append, List.sum_append]

theorem total_le_of_suffix {l l' : List α} (h : l <:+ l') : total size l ≤ total size l' := by
  obtain ⟨before, rfl⟩ := h
  rw [total_append]
  exact Nat.le_add_left _ _

/-- The items that have some of the last `n` bytes, and what comes after the first of them. -/
def backlog (n : ℕ) : List α → List α
  | [] => []
  | a :: l => if total size l < n then a :: l else backlog n l

theorem backlog_suffix (n : ℕ) (l : List α) : backlog size n l <:+ l := by
  induction l with
  | nil => exact List.suffix_refl []
  | cons a l ih =>
    rw [backlog]
    split
    · exact List.suffix_refl _
    · exact ih.trans (List.suffix_cons a l)

theorem backlog_zero (l : List α) : backlog size 0 l = [] := by
  induction l with
  | nil => rfl
  | cons a l ih => rw [backlog, if_neg (Nat.not_lt_zero _), ih]

/-- The backlog has the last `n` bytes in it. -/
theorem le_total_backlog {n : ℕ} {l : List α} (h : n ≤ total size l) :
    n ≤ total size (backlog size n l) := by
  induction l with
  | nil => exact h
  | cons a l ih =>
    rw [backlog]
    split
    · exact h
    · next hge => exact ih (Nat.le_of_not_lt hge)

theorem backlog_mono {m n : ℕ} (h : m ≤ n) (l : List α) :
    backlog size m l <:+ backlog size n l := by
  induction l with
  | nil => exact List.suffix_refl []
  | cons a l ih =>
    rw [backlog, backlog]
    by_cases hm : total size l < m
    · have hn := Nat.lt_of_lt_of_le hm h
      simp only [if_pos hm, if_pos hn, List.suffix_refl]
    · rw [if_neg hm]
      split
      · exact (backlog_suffix size m l).trans (List.suffix_cons a l)
      · exact ih

/-- What goes in joins the backlog. -/
theorem backlog_append (n : ℕ) (l l' : List α) :
    backlog size (n + total size l') (l ++ l') <:+ backlog size n l ++ l' := by
  induction l with
  | nil => exact backlog_suffix size _ l'
  | cons a l ih =>
    rw [List.cons_append, backlog, backlog, total_append]
    by_cases hlt : total size l < n
    · rw [if_pos hlt, if_pos (Nat.add_lt_add_right hlt _)]
      exact List.suffix_refl _
    · rw [if_neg hlt, if_neg (by omega)]
      exact ih

/-- An item with some of the last `n` bytes is in the backlog. -/
theorem mem_backlog {n : ℕ} {before after : List α} {a : α} (h : total size after < n) :
    a ∈ backlog size n (before ++ a :: after) := by
  induction before with
  | nil =>
    rw [List.nil_append, backlog, if_pos h]
    exact List.mem_cons_self
  | cons b before ih =>
    rw [List.cons_append, backlog]
    split
    · simp
    · exact ih

end Backlog
