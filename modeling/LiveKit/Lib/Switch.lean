import Mathlib.Data.List.Basic

/-!
# The history of a switch

Something that is on or off, and the list of the values it was set to. `Switches` says that no
value was set twice in a row, and ties the list to what the switch was before and is after it.
-/

/-- A switch at `a` is set to the values of the list in turn, each time to the other value, and
is at `b` then. -/
def Switches : Bool → List Bool → Bool → Prop
  | a, [], b => a = b
  | a, c :: cs, b => c ≠ a ∧ Switches c cs b

namespace Switches

variable {a b c : Bool} {as bs : List Bool}

theorem refl (a : Bool) : Switches a [] a := rfl

theorem single (h : c ≠ a) : Switches a [c] c := ⟨h, rfl⟩

/-- Two histories one after the other. -/
theorem append (h : Switches a as b) (h' : Switches b bs c) : Switches a (as ++ bs) c := by
  induction as generalizing a with
  | nil =>
    have hab : a = b := h
    rw [hab]
    exact h'
  | cons d as ih => exact ⟨h.1, ih h.2⟩

/-- What a history goes on with begins where it has led. -/
theorem of_append (h : Switches a as b) (h' : Switches a (as ++ bs) c) : Switches b bs c := by
  induction as generalizing a with
  | nil =>
    have hab : a = b := h
    exact hab ▸ h'
  | cons d as ih => exact ih h.2 h'.2

/-- A switch that is only ever set to one value is set once at most. -/
theorem of_constant {v : Bool} (h : Switches a as b) (hv : ∀ c ∈ as, c = v) :
    as = [] ∧ a = b ∨ as = [v] ∧ a ≠ v ∧ b = v := by
  match as, h with
  | [], h => exact .inl ⟨rfl, h⟩
  | [c], h =>
    have hc : c = v := hv c List.mem_cons_self
    subst hc
    exact .inr ⟨rfl, fun hac => h.1 hac.symm, h.2.symm⟩
  | c :: d :: as, h =>
    have hc : c = v := hv c List.mem_cons_self
    have hd : d = v := hv d (List.mem_cons_of_mem _ List.mem_cons_self)
    exact absurd (hd.trans hc.symm) h.2.1

end Switches

/-- A switch that is off at first is on when it has been set to on once more than to off. -/
theorem Switches.count {a b : Bool} {as : List Bool} (h : Switches a as b) :
    as.count true + a.toNat = as.count false + b.toNat := by
  induction as generalizing a with
  | nil =>
    have hab : a = b := h
    rw [hab]
    rfl
  | cons c as ih =>
    have hrest := ih h.2
    have hother := h.1
    rw [List.count_cons, List.count_cons]
    rw [show (c == true) = c by cases c <;> rfl, show (c == false) = !c by cases c <;> rfl]
    cases a with
    | false =>
      cases c with
      | false => exact absurd rfl hother
      | true =>
        simp only [Bool.toNat_true, Bool.toNat_false, if_true] at hrest ⊢
        simp only [Bool.not_true, Bool.false_eq_true, if_false]
        omega
    | true =>
      cases c with
      | true => exact absurd rfl hother
      | false =>
        simp only [Bool.toNat_true, Bool.toNat_false] at hrest ⊢
        simp only [Bool.not_false, Bool.false_eq_true, if_false, if_true]
        omega

/-! ## The changes of a value -/

/-- The changes lead from one value to the other, each from where the one before it has led. -/
def Leads {α : Type*} : α → List (α × α) → α → Prop
  | s, [], t => s = t
  | s, (s', m) :: changes, t => s' = s ∧ s' ≠ m ∧ Leads m changes t

namespace Leads

variable {α : Type*} {s m t : α} {l l' : List (α × α)}

theorem append (h : Leads s l m) (h' : Leads m l' t) : Leads s (l ++ l') t := by
  induction l generalizing s with
  | nil =>
    have hsm : s = m := h
    rw [hsm]
    exact h'
  | cons change l ih => exact ⟨h.1, h.2.1, ih h.2.2⟩

/-- A change that is noted if it is one. -/
theorem single [DecidableEq α] (s t : α) : Leads s (if s ≠ t then [(s, t)] else []) t := by
  split
  next h => exact ⟨rfl, h, rfl⟩
  next h => exact not_not.mp h

end Leads
