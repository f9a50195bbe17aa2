import Mathlib.Data.List.Forall2

/-!
# Fallible conversions of a list

A conversion of all elements that stops at the first error gives, if it gives anything, a list
that corresponds to the old one element by element.
-/

namespace Traverse

variable {α β ε : Type}

variable {l : List α}

theorem forall₂_of_mapM {f : α → Except ε β} {l' : List β} (h : l.mapM f = .ok l') :
    List.Forall₂ (fun a b => f a = .ok b) l l' := by
  induction l generalizing l' with
  | nil =>
    rw [List.mapM_nil] at h
    cases h
    exact .nil
  | cons a l ih =>
    rw [List.mapM_cons] at h
    cases ha : f a with
    | error err =>
      rw [ha] at h
      cases h
    | ok b =>
      cases hl : l.mapM f with
      | error err =>
        rw [ha, hl] at h
        cases h
      | ok bs =>
        rw [ha, hl] at h
        cases h
        exact .cons ha (ih hl)

/-! ## Conversions without a reason -/

variable {f : α → Option β}

theorem mapM_eq_map {g : α → β} (h : ∀ a ∈ l, f a = some (g a)) : l.mapM f = some (l.map g) := by
  induction l with
  | nil => rfl
  | cons a l ih =>
    rw [List.mapM_cons, h a List.mem_cons_self, ih fun b hb => h b (List.mem_cons_of_mem a hb)]
    rfl

/-- A list is converted if all of its elements are. -/
theorem exists_mapM_iff : (∃ l', l.mapM f = some l') ↔ ∀ a ∈ l, ∃ b, f a = some b := by
  induction l with
  | nil => exact iff_of_true ⟨[], rfl⟩ (List.forall_mem_nil _)
  | cons a l ih =>
    rw [List.forall_mem_cons, ← ih, List.mapM_cons]
    cases ha : f a with
    | none =>
      apply iff_of_false
      · intro ⟨l', hnone⟩
        cases hnone
      · intro ⟨⟨b, hnone⟩, _⟩
        cases hnone
    | some b =>
      cases hl : l.mapM f with
      | none =>
        apply iff_of_false
        · intro ⟨l', hnone⟩
          cases hnone
        · intro ⟨_, l', hnone⟩
          cases hnone
      | some l' => exact iff_of_true ⟨b :: l', rfl⟩ ⟨⟨b, rfl⟩, l', rfl⟩

theorem mapM_length {l' : List β} (h : l.mapM f = some l') : l'.length = l.length := by
  induction l generalizing l' with
  | nil =>
    obtain rfl := Option.some.inj h
    rfl
  | cons a l ih =>
    rw [List.mapM_cons] at h
    obtain ⟨b, -, h⟩ := Option.bind_eq_some_iff.mp h
    obtain ⟨rest, hrest, h⟩ := Option.bind_eq_some_iff.mp h
    obtain rfl := Option.some.inj h
    rw [List.length_cons, ih hrest, List.length_cons]

/-! ## Corresponding lists -/

/-- Corresponding lists have corresponding first elements with a property. -/
theorem find?_of_forall₂ {R : α → β → Prop} {p : α → Bool} {q : β → Bool}
    (hpq : ∀ a b, R a b → p a = q b) {l' : List β} (h : List.Forall₂ R l l') :
    Option.Rel R (l.find? p) (l'.find? q) := by
  induction h with
  | nil => exact .none
  | @cons a b _ _ hab _ ih =>
    rw [List.find?_cons, List.find?_cons, hpq a b hab]
    cases hq : q b with
    | true => exact .some hab
    | false => exact ih

end Traverse
