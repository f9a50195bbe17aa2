import Mathlib.Data.List.Induction

/-!
# The last write

A register is written to by a list of writes, some of which leave it as it is. What it has in the
end is the last value that was written, or what it had.
-/

namespace LastWrite

variable {α β : Type}

/-- The last value that is written. -/
def last (writes : List (Option α)) : Option α :=
  writes.foldl (fun value write => write.or value) none

@[simp] theorem last_nil : last ([] : List (Option α)) = none := rfl

@[simp] theorem last_concat (writes : List (Option α)) (write : Option α) :
    last (writes ++ [write]) = write.or (last writes) := by
  unfold last
  rw [List.foldl_append]
  rfl

theorem last_append (writes writes' : List (Option α)) :
    last (writes ++ writes') = (last writes').or (last writes) := by
  induction writes' using List.reverseRecOn with
  | nil => rw [List.append_nil, last_nil, Option.none_or]
  | append_singleton writes' write ih =>
    rw [← List.append_assoc, last_concat, last_concat, ih, Option.or_assoc]

/-- What the register has in the end. -/
theorem foldl_getD (writes : List (Option α)) (init : α) :
    writes.foldl (fun value write => write.getD value) init = (last writes).getD init := by
  induction writes using List.reverseRecOn with
  | nil => rfl
  | append_singleton writes write ih =>
    rw [List.foldl_append, ih, last_concat]
    cases write with
    | none | some => rfl

/-- A value that was written is the last, or another is. -/
theorem last_ne_none {writes : List (Option α)} {value : α} (h : some value ∈ writes) :
    last writes ≠ none := by
  induction writes using List.reverseRecOn with
  | nil => cases h
  | append_singleton writes write ih =>
    rw [last_concat]
    cases write with
    | some value' => exact nofun
    | none =>
      rcases List.mem_append.mp h with h | h
      · exact ih h
      · cases List.mem_singleton.mp h

/-- The last value is one that was written. -/
theorem mem_of_last {writes : List (Option α)} {value : α} (h : last writes = some value) :
    some value ∈ writes := by
  induction writes using List.reverseRecOn with
  | nil => cases h
  | append_singleton writes write ih =>
    rw [last_concat] at h
    cases write with
    | some value' =>
      rw [← h]
      exact List.mem_append_right _ List.mem_cons_self
    | none => exact List.mem_append_left _ (ih h)

/-- A function of what is written. -/
theorem last_map (f : α → β) (writes : List (Option α)) :
    last (writes.map (Option.map f)) = (last writes).map f := by
  induction writes using List.reverseRecOn with
  | nil => rfl
  | append_singleton writes write ih =>
    rw [List.map_append, List.map_singleton, last_concat, last_concat, ih]
    cases write with
    | none | some => rfl

end LastWrite
