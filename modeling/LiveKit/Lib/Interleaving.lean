import Mathlib.Logic.Function.Basic

/-!
# Interleavings of a family of lists

Any number of senders share one channel that keeps the order: what comes out is an interleaving of
what each of them sends. What belongs to one of them can be told apart if the elements say whose
they are, and then it comes out in its own order.
-/

/-- The list is what remains of all sources, taken one element after the other from any of them. -/
inductive Interleaving {ι α : Type} [DecidableEq ι] : (ι → List α) → List α → Prop
  | nil {sources : ι → List α} (h : ∀ i, sources i = []) : Interleaving sources []
  | cons {sources : ι → List α} (i : ι) {a : α} {rest run : List α} (hi : sources i = a :: rest)
    (h : Interleaving (Function.update sources i rest) run) : Interleaving sources (a :: run)

namespace Interleaving

variable {ι α : Type} [DecidableEq ι] {sources : ι → List α} {run : List α}

/-- Everything comes from some source. -/
theorem exists_source (h : Interleaving sources run) {a : α} (ha : a ∈ run) :
    ∃ i, a ∈ sources i := by
  induction h with
  | nil h => cases ha
  | @cons sources i b rest run hi _ ih =>
    rcases List.mem_cons.mp ha with rfl | ha
    · exact ⟨i, hi ▸ List.mem_cons_self⟩
    · obtain ⟨j, hj⟩ := ih ha
      by_cases hji : j = i
      · subst hji
        rw [Function.update_self] at hj
        exact ⟨j, hi ▸ List.mem_cons_of_mem b hj⟩
      · rw [Function.update_of_ne hji] at hj
        exact ⟨j, hj⟩

/-- What has a property that only the elements of one source have is that source. -/
theorem filter_eq (h : Interleaving sources run) {p : α → Bool} {i : ι}
    (hown : ∀ a ∈ sources i, p a = true) (hother : ∀ j, j ≠ i → ∀ a ∈ sources j, p a = false) :
    run.filter p = sources i := by
  induction h with
  | nil h => rw [h i, List.filter_nil]
  | @cons sources j a rest run hj _ ih =>
    by_cases hij : i = j
    · subst hij
      rw [hj] at hown ⊢
      rw [Function.update_self] at ih
      rw [List.filter_cons_of_pos (hown a List.mem_cons_self)]
      rw [ih (fun b hb => hown b (List.mem_cons_of_mem a hb))]
      intro k hk b hb
      rw [Function.update_of_ne hk] at hb
      exact hother k hk b hb
    · have ha := hother j (Ne.symm hij) a (hj ▸ List.mem_cons_self)
      rw [List.filter_cons_of_neg (by simp [ha])]
      rw [Function.update_of_ne hij] at ih
      apply ih hown
      intro k hk b hb
      by_cases hkj : k = j
      · subst hkj
        rw [Function.update_self] at hb
        exact hother k hk b (hj ▸ List.mem_cons_of_mem a hb)
      · rw [Function.update_of_ne hkj] at hb
        exact hother k hk b hb

end Interleaving
