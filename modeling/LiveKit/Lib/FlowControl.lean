import LiveKit.Lib.Backlog

/-!
# Flow control by a threshold

Sized items go into a buffer in order, as long as not more than a threshold is in it already: those
that are `sendable` go in, the others are `held`. The buffer may refuse some of the items; what it
`accepted` is less than what was put in exactly if one of those is not empty.

The one who puts items in keeps an amount, which grows with every item and shrinks with every report
of the buffer that is handled. `Account` says what the amount then is, with one rule for each of
these events.
-/

namespace FlowControl

open Backlog

variable {α : Type} (size : α → ℕ)

/-! ## The threshold -/

/-- The items that go in when `amount` is in the buffer. -/
def sendable (threshold amount : ℕ) : List α → List α
  | [] => []
  | a :: l => if amount ≤ threshold then a :: sendable threshold (amount + size a) l else []

/-- The items that do not. -/
def held (threshold amount : ℕ) : List α → List α
  | [] => []
  | a :: l => if amount ≤ threshold then held threshold (amount + size a) l else a :: l

theorem sendable_append_held (threshold amount : ℕ) (l : List α) :
    sendable size threshold amount l ++ held size threshold amount l = l := by
  induction l generalizing amount with
  | nil => rfl
  | cons a l ih =>
    rw [sendable, held]
    by_cases hroom : amount ≤ threshold
    · rw [if_pos hroom, if_pos hroom, List.cons_append, ih]
    · rw [if_neg hroom, if_neg hroom, List.nil_append]

/-- Items are held only when more than the threshold is in the buffer. -/
theorem lt_of_held_ne_nil {threshold amount : ℕ} {l : List α}
    (h : held size threshold amount l ≠ []) :
    threshold < amount + total size (sendable size threshold amount l) := by
  induction l generalizing amount with
  | nil => exact absurd rfl h
  | cons a l ih =>
    rw [held] at h
    rw [sendable]
    by_cases hroom : amount ≤ threshold
    · rw [if_pos hroom] at h ⊢
      have hrest := ih h
      rw [total_cons]
      omega
    · rw [if_neg hroom]
      omega

/-- The first item goes in when there is room. -/
theorem sendable_cons {threshold amount : ℕ} (a : α) (l : List α) (h : amount ≤ threshold) :
    sendable size threshold amount (a :: l)
      = a :: sendable size threshold (amount + size a) l := by
  rw [sendable, if_pos h]

/-! ## What is accepted -/

/-- The size of the items that are accepted; `first` is the number of the first item. -/
def accepted (accepts : ℕ → Bool) (first : ℕ) : List α → ℕ
  | [] => 0
  | a :: l => (if accepts first then size a else 0) + accepted accepts (first + 1) l

theorem accepted_append (accepts : ℕ → Bool) (first : ℕ) (l l' : List α) :
    accepted size accepts first (l ++ l')
      = accepted size accepts first l + accepted size accepts (first + l.length) l' := by
  induction l generalizing first with
  | nil => simp [accepted]
  | cons a l ih =>
    have hnext : first + 1 + l.length = first + (a :: l).length := by
      rw [List.length_cons]
      omega
    rw [List.cons_append, accepted, accepted, ih, hnext, Nat.add_assoc]

theorem accepted_le_total (accepts : ℕ → Bool) (first : ℕ) (l : List α) :
    accepted size accepts first l ≤ total size l := by
  induction l generalizing first with
  | nil => exact Nat.le_refl _
  | cons a l ih =>
    rw [accepted, total_cons]
    refine Nat.add_le_add ?_ (ih (first + 1))
    by_cases haccepts : accepts first = true
    · rw [if_pos haccepts]
    · rw [if_neg haccepts]
      exact Nat.zero_le _

/-- Every item that is refused is empty. -/
def NothingLost (accepts : ℕ → Bool) (first : ℕ) (l : List α) : Prop :=
  ∀ (i : ℕ) (a : α), l[i]? = some a → accepts (first + i) = false → size a = 0

theorem nothingLost_cons (accepts : ℕ → Bool) (first : ℕ) (a : α) (l : List α) :
    NothingLost size accepts first (a :: l) ↔
      (accepts first = false → size a = 0) ∧ NothingLost size accepts (first + 1) l := by
  unfold NothingLost
  constructor
  · intro h
    refine ⟨h 0 a rfl, ?_⟩
    intro i b hb hrefused
    refine h (i + 1) b hb ?_
    rw [← hrefused]
    congr 1
    omega
  · rintro ⟨hfirst, hrest⟩ i b hb hrefused
    cases i with
    | zero =>
      cases hb
      exact hfirst hrefused
    | succ i =>
      refine hrest i b hb ?_
      rw [← hrefused]
      congr 1
      omega

theorem accepted_eq_total_iff (accepts : ℕ → Bool) (first : ℕ) (l : List α) :
    accepted size accepts first l = total size l ↔ NothingLost size accepts first l := by
  induction l generalizing first with
  | nil =>
    refine ⟨?_, fun _ => rfl⟩
    intro _ i a ha
    cases ha
  | cons a l ih =>
    have hle := accepted_le_total size accepts (first + 1) l
    rw [accepted, total_cons, nothingLost_cons, ← ih]
    by_cases haccepts : accepts first = true
    · rw [if_pos haccepts]
      have hirrelevant : accepts first = false → size a = 0 := by
        intro hrefused
        rw [haccepts] at hrefused
        cases hrefused
      refine ⟨fun heq => ⟨hirrelevant, by omega⟩, fun h => by rw [h.2]⟩
    · rw [if_neg haccepts]
      refine ⟨fun heq => ⟨fun _ => by omega, by omega⟩, ?_⟩
      rintro ⟨hempty, hrest⟩
      rw [hempty (Bool.eq_false_iff.mpr haccepts), hrest]

/-! ## The account -/

/-- What is kept as the amount in the buffer when `items` were put in, `reported` bytes have come
out, and the reports of `waiting` bytes have not been handled. -/
structure Account (accepts : ℕ → Bool) (items : List α) (amount reported waiting : ℕ) : Prop where
  balance : amount + reported = total size items + waiting
  /-- What was not accepted is not reported. -/
  reported_le : reported ≤ accepted size accepts 0 items

namespace Account

variable {accepts : ℕ → Bool} {items : List α} {amount reported waiting : ℕ} {size}

theorem empty (size : α → ℕ) (accepts : ℕ → Bool) : Account size accepts [] 0 0 0 :=
  ⟨rfl, Nat.le_refl _⟩

section

variable (h : Account size accepts items amount reported waiting)

include h

theorem put (now : List α) :
    Account size accepts (items ++ now) (amount + total size now) reported waiting := by
  have hbalance := h.balance
  have hreported := h.reported_le
  refine ⟨?_, ?_⟩
  · rw [total_append]
    omega
  · rw [accepted_append]
    omega

theorem report {n : ℕ} (hn : reported + n ≤ accepted size accepts 0 items) :
    Account size accepts items amount (reported + n) (waiting + n) := by
  have hbalance := h.balance
  exact ⟨by omega, hn⟩

/-- The reports never exceed the amount. -/
theorem waiting_le :
    waiting ≤ amount := by
  have hbalance := h.balance
  have hreported := h.reported_le
  have hle := accepted_le_total size accepts 0 items
  omega

end

theorem handle {n : ℕ} (h : Account size accepts items amount reported (n + waiting)) :
    Account size accepts items (amount - n) reported waiting := by
  have hbalance := h.balance
  have hle := h.waiting_le
  exact ⟨by omega, h.reported_le⟩

/-- The amount is what was accepted and is not known to have come out exactly if nothing was
lost. -/
theorem balance_iff (h : Account size accepts items amount reported waiting) :
    amount + reported = accepted size accepts 0 items + waiting ↔
      NothingLost size accepts 0 items := by
  rw [h.balance, Nat.add_right_cancel_iff, ← accepted_eq_total_iff]
  exact eq_comm

end Account

end FlowControl
