import Mathlib.Data.List.Basic

/-!
# Components in a list

A system numbers its components by their places in a list: one is added at the end, or one is
replaced, and the others stay where they are.
-/

namespace Components

variable {β : Type} {l : List β} {i : ℕ} {b : β}

/-- A component that is added gets the next number. -/
theorem getElem?_concat (l : List β) (b : β) (j : ℕ) :
    (l ++ [b])[j]? = if j = l.length then some b else l[j]? := by
  by_cases hj : j = l.length
  · rw [if_pos hj, hj, List.getElem?_concat_length]
  · rw [if_neg hj]
    by_cases hlt : j < l.length
    · exact List.getElem?_append_left hlt
    · have hlen : (l ++ [b]).length = l.length + 1 := List.length_append
      rw [List.getElem?_eq_none (by omega), List.getElem?_eq_none (by omega)]

/-- A component that is replaced. -/
theorem getElem?_set (h : l[i]? = some b) (c : β) (j : ℕ) :
    (l.set i c)[j]? = if j = i then some c else l[j]? := by
  have hlt : i < l.length := (List.getElem?_eq_some_iff.mp h).1
  by_cases hj : j = i
  · rw [if_pos hj, hj, List.getElem?_set_self hlt]
  · rw [if_neg hj, List.getElem?_set_ne (Ne.symm hj)]

/-- What is found where one was replaced is the new one, or another that was there before. -/
theorem of_getElem?_set {c d : β} {j : ℕ} (h : l[i]? = some b)
    (hj : (l.set i c)[j]? = some d) : j = i ∧ d = c ∨ j ≠ i ∧ l[j]? = some d := by
  rw [getElem?_set h] at hj
  by_cases hji : j = i
  · rw [if_pos hji, Option.some.injEq] at hj
    exact .inl ⟨hji, hj.symm⟩
  · rw [if_neg hji] at hj
    exact .inr ⟨hji, hj⟩

/-- What is found where one was added is the new one, or was there before. -/
theorem of_getElem?_concat {d : β} {j : ℕ} (hj : (l ++ [b])[j]? = some d) :
    j = l.length ∧ d = b ∨ l[j]? = some d := by
  rw [getElem?_concat] at hj
  by_cases hlast : j = l.length
  · rw [if_pos hlast, Option.some.injEq] at hj
    exact .inl ⟨hlast, hj.symm⟩
  · rw [if_neg hlast] at hj
    exact .inr hj

/-- What holds of every component holds still where one is replaced. -/
theorem forall_set {p : ℕ → β → Prop} {c : β} (h : l[i]? = some b)
    (hall : ∀ j d, l[j]? = some d → p j d) (hc : p i c) :
    ∀ j d, (l.set i c)[j]? = some d → p j d := by
  intro j d hj
  rcases of_getElem?_set h hj with ⟨rfl, rfl⟩ | ⟨-, hj⟩
  · exact hc
  · exact hall j d hj

/-- What holds of every component holds still where one is added. -/
theorem forall_concat {p : ℕ → β → Prop} (hall : ∀ j d, l[j]? = some d → p j d)
    (hb : p l.length b) : ∀ j d, (l ++ [b])[j]? = some d → p j d := by
  intro j d hj
  rcases of_getElem?_concat hj with ⟨rfl, rfl⟩ | hj
  · exact hb
  · exact hall j d hj

/-- A component that is changed is replaced by what it is changed to. -/
theorem modify_eq_set (h : l[i]? = some b) (f : β → β) : l.modify i f = l.set i (f b) := by
  apply List.ext_getElem?
  intro j
  rw [List.getElem?_modify, getElem?_set h]
  by_cases hj : j = i
  · rw [if_pos hj, hj, h]
    simp
  · rw [if_neg hj]
    cases l[j]? with
    | none => rfl
    | some c =>
      show some (if i = j then f c else c) = some c
      rw [if_neg (Ne.symm hj)]

/-- What has no place among the components is not the number of one. -/
theorem ne_length (h : l[i]? = some b) : i ≠ l.length := by
  have hlt : i < l.length := (List.getElem?_eq_some_iff.mp h).1
  omega

end Components
