import Mathlib.Data.List.Basic

/-!
# What one observer sees of a list

Of a list only the entries with a property are seen. `rank` is the place of an entry among those,
so a change of one entry is seen in its own place, or not at all.
-/

namespace List

open List

variable {α : Type} {p : α → Bool}

/-- How many entries before the place are seen. -/
def rank (p : α → Bool) (l : List α) (i : ℕ) : ℕ := ((l.take i).filter p).length

theorem rank_cons_succ (a : α) (l : List α) (i : ℕ) :
    rank p (a :: l) (i + 1) = (if p a then 1 else 0) + rank p l i := by
  unfold rank
  rw [take_succ_cons]
  by_cases ha : p a = true
  · rw [filter_cons_of_pos ha, if_pos ha, length_cons]
    omega
  · rw [filter_cons_of_neg ha, if_neg ha]
    omega

theorem rank_length (l : List α) : rank p l l.length = (l.filter p).length := by
  unfold rank
  rw [take_length]

theorem rank_append_of_le {l : List α} (l' : List α) {i : ℕ} (hi : i ≤ l.length) :
    rank p (l ++ l') i = rank p l i := by
  unfold rank
  rw [take_append_of_le_length hi]

section

variable {f : α → α} (hf : ∀ a, p (f a) = p a)
include hf

theorem rank_modify (l : List α) (i j : ℕ) : rank p (l.modify i f) j = rank p l j := by
  induction l generalizing i j with
  | nil => rw [modify_nil]
  | cons a l ih =>
    cases j with
    | zero => rfl
    | succ j =>
      cases i with
      | zero => rw [modify_zero_cons, rank_cons_succ, rank_cons_succ, hf]
      | succ i => rw [modify_succ_cons, rank_cons_succ, rank_cons_succ, ih]

/-- The change of an entry that is seen. -/
theorem filter_modify_of_pos {l : List α} {i : ℕ} {a : α} (h : l[i]? = some a)
    (ha : p a = true) : (l.modify i f).filter p = (l.filter p).modify (rank p l i) f := by
  induction l generalizing i with
  | nil => cases h
  | cons b l ih =>
    cases i with
    | zero =>
      rw [getElem?_cons_zero, Option.some.injEq] at h
      subst h
      have hfb : p (f b) = true := by rw [hf, ha]
      rw [modify_zero_cons, filter_cons_of_pos hfb, filter_cons_of_pos ha]
      rfl
    | succ i =>
      rw [getElem?_cons_succ] at h
      rw [modify_succ_cons, rank_cons_succ]
      by_cases hb : p b = true
      · rw [if_pos hb, filter_cons_of_pos hb, filter_cons_of_pos hb, Nat.add_comm,
          modify_succ_cons, ih h]
      · rw [if_neg hb, filter_cons_of_neg hb, filter_cons_of_neg hb, Nat.zero_add, ih h]

/-- The change of an entry that is not seen. -/
theorem filter_modify_of_neg {l : List α} {i : ℕ} (h : ∀ a, l[i]? = some a → p a = false) :
    (l.modify i f).filter p = l.filter p := by
  induction l generalizing i with
  | nil => rw [modify_nil]
  | cons b l ih =>
    cases i with
    | zero =>
      have hb : p b = false := h b rfl
      have hfb : p (f b) = false := by rw [hf, hb]
      rw [modify_zero_cons, filter_cons_of_neg (by simp [hfb]),
        filter_cons_of_neg (by simp [hb])]
    | succ i =>
      have hl : (l.modify i f).filter p = l.filter p := ih h
      rw [modify_succ_cons, filter_cons, filter_cons, hl]

end

end List
