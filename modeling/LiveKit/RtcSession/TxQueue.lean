import LiveKit.Lib.Backlog

/-!
# The queue of sent packets

`utils/tx_queue.rs`: a queue that knows the size of its items, to be cut from the front when they
are too many.
-/

namespace LiveKit.RtcSession

/-- Item in a `TxQueue`. -/
class TxQueueItem (T : Type) where
  /-- Amount in bytes this item adds to the buffered size of the queue. -/
  bufferedSize : T → ℕ

/-- The buffered size is always that of the items. -/
structure TxQueue (T : Type) [TxQueueItem T] where
  inner : List T
  bufferedSize : ℕ
  size_eq : bufferedSize = Backlog.total TxQueueItem.bufferedSize inner

namespace TxQueue

variable {T : Type} [TxQueueItem T]

/-- Creates an empty queue. -/
def new : TxQueue T := ⟨[], 0, rfl⟩

/-- Appends an item to the back of the queue. -/
def enqueue (self : TxQueue T) (item : T) : TxQueue T where
  inner := self.inner ++ [item]
  bufferedSize := self.bufferedSize + TxQueueItem.bufferedSize item
  size_eq := by rw [Backlog.total_append, self.size_eq]; rfl

/-- Removes the first item and returns it, or `none` if the queue is empty. -/
def dequeue (self : TxQueue T) : Option (T × TxQueue T) :=
  match h : self.inner with
  | [] => none
  | item :: inner =>
    some (item,
      { inner
        bufferedSize := self.bufferedSize - TxQueueItem.bufferedSize item
        size_eq := by rw [self.size_eq, h, Backlog.total_cons, Nat.add_sub_cancel_left] })

/-- The loop of `trim`; each turn takes one item, so that there are not more than `fuel`. -/
def trimAux (targetBufferSize : ℕ) : ℕ → TxQueue T → TxQueue T
  | 0, self => self
  | fuel + 1, self =>
    if self.bufferedSize > targetBufferSize then
      match self.dequeue with
      | none => self
      | some (_, self) => trimAux targetBufferSize fuel self
    else self

/-- Dequeue and discard items until the buffered size is less than or equal to the given target. -/
def trim (self : TxQueue T) (targetBufferSize : ℕ) : TxQueue T :=
  trimAux targetBufferSize self.inner.length self

@[simp] theorem new_inner : (new : TxQueue T).inner = [] := rfl

@[simp] theorem enqueue_inner (self : TxQueue T) (item : T) :
    (self.enqueue item).inner = self.inner ++ [item] := rfl

theorem dequeue_of_cons {self : TxQueue T} {item : T} {rest : List T}
    (h : self.inner = item :: rest) :
    ∃ self', self.dequeue = some (item, self') ∧ self'.inner = rest := by
  unfold dequeue
  split
  · next heq => rw [h] at heq; cases heq
  · next item' rest' heq =>
    rw [h] at heq
    obtain ⟨rfl, rfl⟩ := List.cons.inj heq
    exact ⟨_, rfl, rfl⟩

/-- The queue is cut to the longest end that is not larger than the target. -/
theorem trim_spec (self : TxQueue T) (target : ℕ) :
    (self.trim target).inner <:+ self.inner ∧ (self.trim target).bufferedSize ≤ target ∧
      ∀ l, l <:+ self.inner → Backlog.total TxQueueItem.bufferedSize l ≤ target →
        l <:+ (self.trim target).inner := by
  have hloop : ∀ (fuel : ℕ) (self : TxQueue T), self.inner.length ≤ fuel →
      (trimAux target fuel self).inner <:+ self.inner ∧
        (trimAux target fuel self).bufferedSize ≤ target ∧
        ∀ l, l <:+ self.inner → Backlog.total TxQueueItem.bufferedSize l ≤ target →
          l <:+ (trimAux target fuel self).inner := by
    intro fuel
    induction fuel with
    | zero =>
      intro self hfuel
      have hnil : self.inner = [] := List.eq_nil_of_length_eq_zero (by omega)
      refine ⟨List.suffix_refl _, ?_, fun l hl _ => hl⟩
      rw [trimAux, self.size_eq, hnil]
      exact Nat.zero_le target
    | succ fuel ih =>
      intro self hfuel
      rw [trimAux]
      by_cases hlarge : self.bufferedSize > target
      · rw [if_pos hlarge]
        cases hinner : self.inner with
        | nil =>
          rw [self.size_eq, hinner] at hlarge
          exact absurd hlarge (Nat.not_lt_zero _)
        | cons item rest =>
          obtain ⟨self', hdequeue, hrest⟩ := dequeue_of_cons hinner
          rw [hdequeue]
          simp only
          have hfuel' : self'.inner.length ≤ fuel := by
            rw [hinner, List.length_cons] at hfuel
            rw [hrest]
            omega
          obtain ⟨hsuffix, hsize, hlongest⟩ := ih self' hfuel'
          refine ⟨?_, hsize, ?_⟩
          · rw [hrest] at hsuffix
            exact hsuffix.trans (List.suffix_cons item rest)
          · intro l hl hle
            apply hlongest l _ hle
            rw [hrest]
            -- the whole queue is larger than the target
            rcases List.suffix_cons_iff.mp hl with rfl | hl
            · rw [self.size_eq, hinner] at hlarge
              omega
            · exact hl
      · rw [if_neg hlarge]
        exact ⟨List.suffix_refl _, by omega, fun l hl _ => hl⟩
  exact hloop _ self (Nat.le_refl _)

end TxQueue

end LiveKit.RtcSession
