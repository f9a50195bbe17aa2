import Mathlib.Data.List.Basic

/-!
# Ring buffers

What is relied on of a buffer of bounded size with an end to push at and an end to pop at: it
holds a list, to which a push adds at the end and from which a pop takes at the front. A push fails
when the buffer is full, a pop when it is empty.
-/

/-- A ring buffer of a capacity, with what its operations do. -/
structure RingBuffer (F : Type) (capacity : ℕ) where
  Buffer : Type
  new : Buffer
  push : Buffer → F → Option Buffer
  pop : Buffer → Option (F × Buffer)
  contents : Buffer → List F
  contents_new : contents new = []
  push_eq_none {b : Buffer} {f : F} : push b f = none ↔ capacity ≤ (contents b).length
  contents_push {b b' : Buffer} {f : F} : push b f = some b' → contents b' = contents b ++ [f]
  pop_eq_none {b : Buffer} : pop b = none ↔ contents b = []
  contents_pop {b b' : Buffer} {f : F} : pop b = some (f, b') → contents b = f :: contents b'

namespace RingBuffer

variable {F : Type} {capacity : ℕ} (ring : RingBuffer F capacity)

/-- Pops until a pop fails, at most the given number of times. -/
def popAll : ℕ → ring.Buffer → ring.Buffer × List F
  | 0, b => (b, [])
  | n + 1, b =>
    match ring.pop b with
    | none => (b, [])
    | some (f, b') => ((popAll n b').1, f :: (popAll n b').2)

/-- Pops until a pop fails. -/
def clear (b : ring.Buffer) : ring.Buffer × List F := ring.popAll (ring.contents b).length b

theorem popAll_eq {n : ℕ} {b : ring.Buffer} (hn : (ring.contents b).length ≤ n) :
    ring.contents (ring.popAll n b).1 = [] ∧ (ring.popAll n b).2 = ring.contents b := by
  induction n generalizing b with
  | zero =>
    have hempty : ring.contents b = [] := List.eq_nil_of_length_eq_zero (Nat.le_zero.mp hn)
    exact ⟨hempty, hempty.symm⟩
  | succ n ih =>
    unfold popAll
    cases hpop : ring.pop b with
    | none =>
      have hempty : ring.contents b = [] := ring.pop_eq_none.mp hpop
      exact ⟨hempty, hempty.symm⟩
    | some popped =>
      have hcontents := ring.contents_pop hpop
      have hrest : (ring.contents popped.2).length ≤ n := by
        rw [hcontents, List.length_cons] at hn
        omega
      have hih := ih hrest
      refine ⟨hih.1, ?_⟩
      rw [hcontents, ← hih.2]

/-- Nothing is left, -/
theorem contents_clear (b : ring.Buffer) : ring.contents (ring.clear b).1 = [] :=
  (ring.popAll_eq (Nat.le_refl _)).1

/-- and all that was there has been popped. -/
theorem clear_eq (b : ring.Buffer) : (ring.clear b).2 = ring.contents b :=
  (ring.popAll_eq (Nat.le_refl _)).2

/-- The buffer as a list. -/
def ofList (F : Type) (capacity : ℕ) : RingBuffer F capacity where
  Buffer := List F
  new := []
  push l f := if l.length < capacity then some (l ++ [f]) else none
  pop
    | [] => none
    | f :: l => some (f, l)
  contents l := l
  contents_new := rfl
  push_eq_none := by
    intro l f
    split
    next hlt => exact iff_of_false (Option.some_ne_none _) (Nat.not_le_of_lt hlt)
    next hlt => exact iff_of_true rfl (Nat.le_of_not_lt hlt)
  contents_push := by
    intro l l' f hpush
    split at hpush
    · exact (Option.some.inj hpush).symm
    · cases hpush
  pop_eq_none := by
    intro l
    cases l with
    | nil => exact iff_of_true rfl rfl
    | cons f l => exact iff_of_false (Option.some_ne_none _) (List.cons_ne_nil f l)
  contents_pop := by
    intro l l' f hpop
    cases l with
    | nil => cases hpop
    | cons g l =>
      cases hpop
      rfl

end RingBuffer
