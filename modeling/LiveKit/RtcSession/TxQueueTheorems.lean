import LiveKit.RtcSession.TxQueue

/-!
# Histories of the queue

Here nothing ties the counter of a queue to its items: the subtraction may underflow, and the loop
of `trim`, which looks at the counter only, may not come to an end. The items are in memory, so that
the sum of their sizes is a `usize`.
-/

namespace LiveKit.RtcSession.TxQueue

open List

variable {T : Type} [TxQueueItem T]

/-- The fields of a queue. -/
structure Fields (T : Type) where
  inner : List T
  bufferedSize : ℕ

inductive Failure where
  /-- The subtraction in `dequeue` underflows. -/
  | underflow
  /-- The loop of `trim` has not come to an end. -/
  | running

inductive Call (T : Type) where
  | enqueue (item : T)
  | dequeue
  | trim (targetBufferSize : ℕ)

namespace Fields

def enqueue (self : Fields T) (item : T) : Fields T :=
  ⟨self.inner ++ [item], self.bufferedSize + TxQueueItem.bufferedSize item⟩

def dequeue (self : Fields T) : Except Failure (Option T × Fields T) :=
  match self.inner with
  | [] => .ok (none, self)
  | item :: inner =>
    if TxQueueItem.bufferedSize item ≤ self.bufferedSize then
      .ok (some item, ⟨inner, self.bufferedSize - TxQueueItem.bufferedSize item⟩)
    else .error .underflow

/-- The loop, for as many turns as there is fuel, with the items that it discards. -/
def trim (targetBufferSize : ℕ) : ℕ → Fields T → Except Failure (List T × Fields T)
  | 0, _ => .error .running
  | fuel + 1, self =>
    if self.bufferedSize > targetBufferSize then do
      -- an empty queue is dequeued again and again
      let (item, self) ← self.dequeue
      let (items, self) ← trim targetBufferSize fuel self
      return (item.toList ++ items, self)
    else .ok ([], self)

/-- A call, with the items that it takes from the queue. -/
def perform (fuel : ℕ) (self : Fields T) : Call T → Except Failure (List T × Fields T)
  | .enqueue item => .ok ([], self.enqueue item)
  | .dequeue => do
    let (item, self) ← self.dequeue
    return (item.toList, self)
  | .trim targetBufferSize => self.trim targetBufferSize fuel

def run (fuel : ℕ) : List (Call T) → Fields T → Except Failure (List T × Fields T)
  | [], self => .ok ([], self)
  | call :: calls, self => do
    let (items, self) ← self.perform fuel call
    let (rest, self) ← run fuel calls self
    return (items ++ rest, self)

end Fields

/-! ## What is promised -/

def Call.enqueued : Call T → List T
  | .enqueue item => [item]
  | _ => []

/-- A queue, after these items were put in and those were taken out. -/
structure Accounted (enqueued taken : List T) (self : Fields T) : Prop where
  size : self.bufferedSize = Backlog.total TxQueueItem.bufferedSize self.inner
  order : taken ++ self.inner = enqueued
  /-- `trim` discards the fewest items at the front. -/
  trim : ∀ target, ∃ fuel discarded rest, self.trim target fuel = .ok (discarded, rest) ∧
    discarded ++ rest.inner = self.inner ∧ rest.bufferedSize ≤ target ∧
    ∀ k, Backlog.total TxQueueItem.bufferedSize (self.inner.drop k) ≤ target →
      discarded.length ≤ k

/-! ## The calls -/

def fields (self : TxQueue T) : Fields T := ⟨self.inner, self.bufferedSize⟩

/-- On a queue whose size is that of the items, the subtraction does not underflow. -/
theorem dequeue_fields (self : TxQueue T) : self.fields.dequeue = .ok (match self.dequeue with
    | none => (none, self.fields)
    | some (item, self') => (some item, self'.fields)) := by
  unfold Fields.dequeue fields dequeue
  cases self with | mk inner bufferedSize size_eq =>
  cases inner with
  | nil => rfl
  | cons item inner =>
    have hle : TxQueueItem.bufferedSize item ≤ bufferedSize := by
      rw [size_eq, Backlog.total_cons]
      exact Nat.le_add_right _ _
    dsimp only
    rw [if_pos hle]

theorem dequeue_of_nil {self : TxQueue T} (h : self.inner = []) : self.dequeue = none := by
  unfold dequeue
  split
  · rfl
  · next heq =>
    rw [h] at heq
    cases heq

/-- The loop ends before there is nothing left to take. -/
theorem trim_fields (target fuel : ℕ) (self : TxQueue T) (hfuel : self.inner.length ≤ fuel) :
    ∃ discarded, self.fields.trim target (fuel + 1) =
        .ok (discarded, (trimAux target fuel self).fields) ∧
      discarded ++ (trimAux target fuel self).inner = self.inner := by
  induction fuel generalizing self with
  | zero =>
    have hnil : self.inner = [] := eq_nil_of_length_eq_zero (by omega)
    have hsize : self.bufferedSize = 0 := by
      rw [self.size_eq, hnil]
      rfl
    refine ⟨[], ?_, rfl⟩
    rw [Fields.trim, if_neg]
    · rfl
    · show ¬ self.bufferedSize > target
      omega
  | succ fuel ih =>
    rw [Fields.trim, trimAux]
    show ∃ discarded, (if self.bufferedSize > target then _ else _) = _ ∧ _
    by_cases hlarge : self.bufferedSize > target
    · rw [if_pos hlarge, if_pos hlarge, dequeue_fields]
      cases hinner : self.inner with
      | nil =>
        rw [self.size_eq, hinner] at hlarge
        exact absurd hlarge (Nat.not_lt_zero _)
      | cons item inner =>
        obtain ⟨rest, hdequeue, hrest⟩ := dequeue_of_cons hinner
        have hless : rest.inner.length ≤ fuel := by
          rw [hinner, length_cons] at hfuel
          rw [hrest]
          omega
        obtain ⟨discarded, htrim, hsplit⟩ := ih rest hless
        rw [hdequeue]
        refine ⟨item :: discarded, ?_, ?_⟩
        · show (rest.fields.trim target (fuel + 1) >>= _) = _
          rw [htrim]
          rfl
        · rw [cons_append, hsplit, hrest]
    · rw [if_neg hlarge, if_neg hlarge]
      exact ⟨[], rfl, rfl⟩

/-- A queue whose size is that of the items stays one. -/
theorem run_fields (fuel : ℕ) (calls : List (Call T)) (self : TxQueue T)
    (hfuel : self.inner.length + (calls.flatMap Call.enqueued).length ≤ fuel) :
    ∃ taken self', Fields.run (fuel + 1) calls self.fields = .ok (taken, fields self') ∧
      taken ++ self'.inner = self.inner ++ calls.flatMap Call.enqueued := by
  induction calls generalizing self with
  | nil => exact ⟨[], self, rfl, (append_nil _).symm⟩
  | cons call calls ih =>
    rw [flatMap_cons, length_append] at hfuel
    have hcall : ∃ items next, self.fields.perform (fuel + 1) call = .ok (items, fields next) ∧
        items ++ next.inner = self.inner ++ call.enqueued := by
      cases call with
      | enqueue item => exact ⟨[], self.enqueue item, rfl, rfl⟩
      | dequeue =>
        show ∃ items next, (self.fields.dequeue >>= _) = _ ∧ _
        rw [dequeue_fields]
        cases hinner : self.inner with
        | nil =>
          rw [dequeue_of_nil hinner]
          exact ⟨[], self, rfl, by rw [hinner]; rfl⟩
        | cons item inner =>
          obtain ⟨rest, hdequeue, hrest⟩ := dequeue_of_cons hinner
          rw [hdequeue]
          refine ⟨[item], rest, rfl, ?_⟩
          rw [hrest]
          exact (append_nil _).symm
      | trim target =>
        obtain ⟨discarded, htrim, hsplit⟩ := trim_fields target fuel self (by omega)
        refine ⟨discarded, _, htrim, ?_⟩
        rw [hsplit]
        exact (append_nil _).symm
    obtain ⟨items, next, hperform, horder⟩ := hcall
    have hlength := congrArg List.length horder
    rw [length_append, length_append] at hlength
    obtain ⟨taken, last, hrun, hrest⟩ := ih next (by omega)
    refine ⟨items ++ taken, last, ?_, ?_⟩
    · show (self.fields.perform (fuel + 1) call >>= _) = _
      rw [hperform]
      show (Fields.run (fuel + 1) calls next.fields >>= _) = _
      rw [hrun]
      rfl
    · rw [append_assoc, hrest, ← append_assoc, horder, append_assoc,
        flatMap_cons]

/-- After all calls on a new queue, its size is that of its items, they are the last that were put
in, and `trim` ends with the fewest taken out. -/
theorem calls_accounted (calls : List (Call T)) :
    ∃ fuel taken self, Fields.run fuel calls ⟨[], 0⟩ = .ok (taken, self) ∧
      Accounted (calls.flatMap Call.enqueued) taken self := by
  have hfuel : (new : TxQueue T).inner.length + (calls.flatMap Call.enqueued).length ≤
      (calls.flatMap Call.enqueued).length := Nat.le_of_eq (Nat.zero_add _)
  obtain ⟨taken, self, hrun, horder⟩ := run_fields _ calls new hfuel
  refine ⟨_, taken, self.fields, hrun, self.size_eq, horder, ?_⟩
  intro target
  obtain ⟨discarded, htrim, hsplit⟩ := trim_fields target _ self (Nat.le_refl _)
  obtain ⟨-, hsize, hlongest⟩ := self.trim_spec target
  refine ⟨_, discarded, _, htrim, hsplit, hsize, ?_⟩
  intro k hk
  have hlength := (hlongest _ (drop_suffix k _) hk).length_le
  have hparts := congrArg List.length hsplit
  rw [length_append] at hparts
  rw [length_drop] at hlength
  unfold trim at hlength
  omega

end LiveKit.RtcSession.TxQueue
