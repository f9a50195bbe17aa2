import Mathlib.Data.List.Basic
import Mathlib.Data.List.TakeWhile

/-!
# What has happened since

Of a record that grows at its end: there has been an entry of one kind after the last entry of
another. A request that has not been answered, a change that has not been noticed are of this form.
Of something final, on the other hand, there is no entry of a kind after any entry of another.
`fromFirst` is the part of the record from the first entry of a kind on.
-/

variable {β : Type}

/-- There has been an entry with `p` since the last one with `q`. -/
def Since (p q : β → Prop) (records : List β) : Prop :=
  ∃ before a after, records = before ++ a :: after ∧ p a ∧ ∀ b ∈ after, ¬ q b

namespace Since

open List

variable {p q : β → Prop} {records : List β} {a : β}

theorem not_nil : ¬ Since p q [] := by
  rintro ⟨before, a, after, h, -⟩
  exact append_ne_nil_of_right_ne_nil before (cons_ne_nil a after) h.symm

/-- It has just happened. -/
theorem concat_self (records : List β) (ha : p a) : Since p q (records ++ [a]) :=
  ⟨records, a, [], rfl, ha, fun _ hb => absurd hb not_mem_nil⟩

/-- It had happened, and what came since does not undo it. -/
theorem append (h : Since p q records) {records' : List β} (hnot : ∀ b ∈ records', ¬ q b) :
    Since p q (records ++ records') := by
  obtain ⟨before, a, after, rfl, ha, hafter⟩ := h
  refine ⟨before, a, after ++ records', by simp, ha, ?_⟩
  intro b hb
  rcases mem_append.mp hb with hb | hb
  · exact hafter b hb
  · exact hnot b hb

/-- What came now undoes it. -/
theorem not_concat (records : List β) (hq : q a) (hp : ¬ p a) : ¬ Since p q (records ++ [a]) := by
  rintro ⟨before, b, after, h, hb, hafter⟩
  rcases eq_nil_or_concat' after with rfl | ⟨after', c, rfl⟩
  · have hlast := congrArg List.getLast? h
    rw [getLast?_concat, getLast?_concat, Option.some.injEq] at hlast
    rw [← hlast] at hb
    exact hp hb
  · have hlast := congrArg List.getLast? h
    rw [← cons_append, ← append_assoc, getLast?_concat, getLast?_concat,
      Option.some.injEq] at hlast
    rw [← hlast] at hafter
    exact hafter a (by simp) hq

/-- What came now has not brought it about. -/
theorem of_append {records' : List β} (h : Since p q (records ++ records'))
    (hnot : ∀ b ∈ records', ¬ p b) : Since p q records := by
  obtain ⟨before, a, after, hsplit, ha, hafter⟩ := h
  rcases append_eq_append_iff.mp hsplit with ⟨rest, -, hrest⟩ | ⟨rest, hrecords, hrest⟩
  · rw [hrest] at hnot
    exact absurd ha (hnot a (mem_append_right rest mem_cons_self))
  · cases rest with
    | nil =>
      rw [nil_append] at hrest
      rw [← hrest] at hnot
      exact absurd ha (hnot a mem_cons_self)
    | cons c rest =>
      rw [cons_append] at hrest
      obtain ⟨rfl, rfl⟩ := List.cons.inj hrest
      exact ⟨before, a, rest, hrecords, ha, fun b hb => hafter b (mem_append_left _ hb)⟩

theorem cons_iff : Since p q (a :: records) ↔ Since p q records ∨ p a ∧ ∀ b ∈ records, ¬ q b := by
  constructor
  · rintro ⟨before, b, after, hsplit, hb, hafter⟩
    cases before with
    | nil =>
      obtain ⟨rfl, rfl⟩ := List.cons.inj hsplit
      exact .inr ⟨hb, hafter⟩
    | cons c before =>
      obtain ⟨-, hrecords⟩ := List.cons.inj hsplit
      exact .inl ⟨before, b, after, hrecords, hb, hafter⟩
  · rintro (⟨before, b, after, rfl, hb, hafter⟩ | ⟨ha, hafter⟩)
    · exact ⟨a :: before, b, after, rfl, hb, hafter⟩
    · exact ⟨[], a, records, rfl, ha, hafter⟩

instance decidable [DecidablePred p] [DecidablePred q] :
    (records : List β) → Decidable (Since p q records)
  | [] => isFalse not_nil
  | a :: records =>
    have : Decidable (Since p q records) := decidable records
    decidable_of_iff (Since p q records ∨ p a ∧ ∀ b ∈ records, ¬ q b) cons_iff.symm

end Since

/-- There is no entry with `p` after one with `q`. -/
def NoneAfter (p q : β → Prop) (records : List β) : Prop :=
  ∀ before b after, records = before ++ b :: after → q b → ∀ a ∈ after, ¬ p a

namespace NoneAfter

variable {p q : β → Prop} {records records' : List β}

theorem nil : NoneAfter p q ([] : List β) := by
  intro before b after h
  exact absurd h.symm (List.append_ne_nil_of_right_ne_nil before (List.cons_ne_nil b after))

/-- What came now is not of the first kind. -/
theorem append (h : NoneAfter p q records) (hnot : ∀ a ∈ records', ¬ p a) :
    NoneAfter p q (records ++ records') := by
  intro before b after hsplit hq a ha
  rcases List.append_eq_append_iff.mp hsplit with ⟨rest, -, hrest⟩ | ⟨rest, hrecords, hrest⟩
  · rw [hrest] at hnot
    exact hnot a (List.mem_append_right rest (List.mem_cons_of_mem b ha))
  · cases rest with
    | nil =>
      rw [List.nil_append] at hrest
      rw [← hrest] at hnot
      exact hnot a (List.mem_cons_of_mem b ha)
    | cons c rest =>
      rw [List.cons_append] at hrest
      obtain ⟨rfl, rfl⟩ := List.cons.inj hrest
      rcases List.mem_append.mp ha with ha | ha
      · exact h before b rest hrecords hq a ha
      · exact hnot a ha

/-- What came now is one entry, and is not of the first kind. -/
theorem concat_of_not {a : β} (h : NoneAfter p q records) (hnot : ¬ p a) :
    NoneAfter p q (records ++ [a]) := by
  apply h.append
  intro b hb
  rw [List.mem_singleton.mp hb]
  exact hnot

/-- Nothing of the second kind is there yet, and what came now is one entry. -/
theorem concat {a : β} (h : ∀ b ∈ records, ¬ q b) : NoneAfter p q (records ++ [a]) := by
  intro before b after hsplit hq
  rcases List.eq_nil_or_concat' after with rfl | ⟨after', c, rfl⟩
  · exact fun _ hmem => absurd hmem List.not_mem_nil
  · rw [← List.cons_append, ← List.append_assoc] at hsplit
    have hinit := (List.append_inj' hsplit rfl).1
    have hb : b ∈ records := by
      rw [hinit]
      exact List.mem_append_right before List.mem_cons_self
    exact absurd hq (h b hb)

end NoneAfter

/-- The record from the first entry with `q` on. -/
def fromFirst (q : β → Bool) (records : List β) : List β := records.dropWhile fun b => !q b

section FromFirst

variable {q : β → Bool} {records : List β}

/-- There has been an entry with `q`, and what is recorded now comes after it. -/
theorem fromFirst_append_of_ne (new : List β) (h : fromFirst q records ≠ []) :
    fromFirst q (records ++ new) = fromFirst q records ++ new := by
  unfold fromFirst at h ⊢
  rw [List.dropWhile_append, if_neg]
  rwa [List.isEmpty_iff]

/-- There has been no entry with `q`. -/
theorem fromFirst_append_of_nil (new : List β) (h : fromFirst q records = []) :
    fromFirst q (records ++ new) = fromFirst q new := by
  unfold fromFirst at h ⊢
  rw [List.dropWhile_append, if_pos (by rw [h]; rfl)]

theorem fromFirst_cons {b : β} (hb : q b = true) (after : List β) :
    fromFirst q (b :: after) = b :: after := by
  unfold fromFirst
  rw [List.dropWhile_cons_of_neg (by rw [hb]; decide)]

theorem fromFirst_eq_nil : fromFirst q records = [] ↔ ∀ b ∈ records, q b = false := by
  unfold fromFirst
  rw [List.dropWhile_eq_nil_iff]
  constructor
  · intro h b hb
    exact Bool.not_eq_true' _ ▸ h b hb
  · intro h b hb
    rw [h b hb]
    rfl

end FromFirst
