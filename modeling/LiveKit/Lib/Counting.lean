import Mathlib.Algebra.BigOperators.Group.Finset.Piecewise
import Mathlib.Algebra.Order.BigOperators.Group.Finset
import Mathlib.Algebra.Order.Ring.Nat

/-!
# Counting over an initial segment of the naturals

How a sum and a number of indices change when the value at one index does. A system that
numbers its components counts with these what each of them still has to do.
-/

namespace Counting

open List

variable {n i : ℕ}

/-- A sum changes by what changes at the one index. -/
theorem sum_range_update {f g : ℕ → ℕ} (hi : i < n) (hsame : ∀ j, j ≠ i → g j = f j) :
    (∑ j ∈ Finset.range n, g j) + f i = (∑ j ∈ Finset.range n, f j) + g i := by
  have hmem : i ∈ Finset.range n := Finset.mem_range.mpr hi
  have hrest : ∑ j ∈ (Finset.range n).erase i, g j = ∑ j ∈ (Finset.range n).erase i, f j := by
    apply Finset.sum_congr rfl
    intro j hj
    exact hsame j (Finset.ne_of_mem_erase hj)
  rw [← Finset.add_sum_erase _ g hmem, ← Finset.add_sum_erase _ f hmem, hrest]
  omega

/-- How many indices below `n` have the property. -/
def count (n : ℕ) (p : ℕ → Prop) [DecidablePred p] : ℕ := ((Finset.range n).filter p).card

variable {p q : ℕ → Prop} [DecidablePred p] [DecidablePred q]

theorem count_eq_sum (n : ℕ) (p : ℕ → Prop) [DecidablePred p] :
    count n p = ∑ j ∈ Finset.range n, if p j then 1 else 0 :=
  Finset.card_filter p (Finset.range n)

theorem count_congr (h : ∀ j, j < n → (q j ↔ p j)) : count n q = count n p := by
  unfold count
  congr 1
  apply Finset.filter_congr
  intro j hj
  exact h j (Finset.mem_range.mp hj)

/-- An index that loses the property. -/
theorem count_lose (hi : i < n) (hsame : ∀ j, j ≠ i → (q j ↔ p j)) (hp : p i) (hq : ¬ q i) :
    count n q + 1 = count n p := by
  rw [count_eq_sum, count_eq_sum]
  have hsum := sum_range_update (f := fun j => if p j then 1 else 0)
    (g := fun j => if q j then 1 else 0) hi fun j hj => by simp only [hsame j hj]
  simp only [if_pos hp, if_neg hq] at hsum
  omega

theorem count_pos (hi : i < n) (hp : p i) : 0 < count n p :=
  Finset.card_pos.mpr ⟨i, Finset.mem_filter.mpr ⟨Finset.mem_range.mpr hi, hp⟩⟩

theorem count_eq_zero (h : ∀ j, j < n → ¬ p j) : count n p = 0 := by
  unfold count
  rw [Finset.filter_false_of_mem fun j hj => h j (Finset.mem_range.mp hj), Finset.card_empty]

variable {β : Type} {l : List β} {a b : β}

/-- The sum over a list changes by what changes at the one entry. -/
theorem sum_map_set {f : β → ℕ} (h : l[i]? = some a) :
    ((l.set i b).map f).sum + f a = (l.map f).sum + f b := by
  induction l generalizing i with
  | nil => cases h
  | cons c l ih =>
    cases i with
    | zero =>
      rw [getElem?_cons_zero, Option.some.injEq] at h
      rw [set_cons_zero, map_cons, map_cons, sum_cons, sum_cons, h]
      omega
    | succ i =>
      rw [getElem?_cons_succ] at h
      have hrest := ih h
      rw [set_cons_succ, map_cons, map_cons, sum_cons, sum_cons]
      omega

/-- So does the number of entries with a property. -/
theorem countP_set {p : β → Bool} (h : l[i]? = some a) :
    (l.set i b).countP p + (p a).toNat = l.countP p + (p b).toNat := by
  induction l generalizing i with
  | nil => cases h
  | cons c l ih =>
    cases i with
    | zero =>
      rw [getElem?_cons_zero, Option.some.injEq] at h
      rw [set_cons_zero, countP_cons, countP_cons, h]
      cases p a <;> cases p b <;> simp
    | succ i =>
      rw [getElem?_cons_succ] at h
      have hrest := ih h
      rw [set_cons_succ, countP_cons, countP_cons]
      omega

/-- The other entries stay where they are. -/
theorem mem_set_of_ne {c : β} (h : l[i]? = some a) (hc : c ∈ l) (hne : c ≠ a) : c ∈ l.set i b := by
  obtain ⟨j, hj⟩ := mem_iff_getElem?.mp hc
  have hij : i ≠ j := by
    rintro rfl
    rw [h, Option.some.injEq] at hj
    exact hne hj.symm
  apply mem_of_getElem? (i := j)
  rw [getElem?_set_ne hij]
  exact hj

end Counting
