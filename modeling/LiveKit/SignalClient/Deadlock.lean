import LiveKit.SignalClient.Steps

/-!
# The two locks of the signal client

`send` asks for the stream and then, when the write fails, for the queue; `flush_queue` asks for
the queue and then for the stream. As long as there are only readers this does no harm. The
calls wait for each other in a circle exactly when a `send` that has the stream waits for the
queue while a `flush_queue` that has the queue waits, behind a writer, for the stream.
-/

namespace LiveKit.SignalClient

open FifoLock Option State TransitionSystem

inductive LockName where
  | queue
  | stream

def State.locks (s : State) : LockName → FifoLock ℕ
  | .queue => s.queueLock
  | .stream => s.streamLock

/-- Some calls wait on each other in a circle. -/
def State.Deadlock (s : State) : Prop := FifoLock.Cyclic s.locks

/-- A `send` that has the stream waits for the queue. -/
def State.HoldWaits (s : State) : Prop :=
  ∃ i call, s.calls[i]? = some call ∧ call.point = .holdQueue ∧ s.queueLock.holds i = false

/-- A `flush_queue` that has the queue waits for the stream. -/
def State.FlushWaits (s : State) : Prop :=
  ∃ i call, s.calls[i]? = some call ∧ call.point = .flushStream ∧ s.streamLock.holds i = false

/-- Someone has asked for the stream exclusively, and has it or waits for it. -/
def State.WriterWaits (s : State) : Prop := ∃ i, (i, LockMode.exclusive) ∈ s.streamLock

/-- The step does not close the circle: no `send` that has the stream asks for the queue while
the flush that has the queue waits for the stream, and no flush that has the queue asks for the
stream behind a writer while such a `send` waits for the queue. -/
def StaysOpen (s : State) (a : Action) (_ : State) : Prop :=
  ∀ i call, a = .proceed i → s.calls[i]? = some call →
    (call.point = .enterHold → ¬ s.FlushWaits) ∧
    (call.point = .flushQueue → s.queueLock.holds i = true → s.queue ≠ [] → s.WriterWaits →
      ¬ s.HoldWaits)

/-! ## When there is a circle -/

variable {i : ℕ} {s : State}

/-- Whoever waits for the queue and has asked for the stream is a `send` with the stream. -/
theorem holdWaits_of_waits (h : Locked s) (hwaits : FifoLock.Waits s.locks .queue i)
    (hask : s.streamLock.modeOf i ≠ none) : s.HoldWaits := by
  obtain ⟨u, hblocks⟩ := hwaits
  have hno : s.queueLock.holds i = false := by
    cases hholds : s.queueLock.holds i with
    | true => exact absurd hblocks (not_blocks_of_holds hholds)
    | false => rfl
  obtain ⟨mode, mode', hmode, -, -⟩ := hblocks
  rw [h.stream] at hask
  have hqueue := h.queue i
  rw [show s.queueLock.modeOf i = some mode from hmode] at hqueue
  cases hcall : s.calls[i]? with
  | none =>
    rw [hcall] at hask
    exact absurd rfl hask
  | some call =>
    rw [hcall, bind_some] at hask hqueue
    have hhas := h.hasQueue i call hcall
    rw [hno] at hhas
    refine ⟨i, call, hcall, ?_, hno⟩
    -- the other points with both requests have the queue
    cases hpoint : call.point <;>
      simp_all [Point.queueRequest, Point.streamRequest, Point.hasQueue]

/-- Whoever waits for the stream and has asked for the queue is a `flush_queue` with the queue. -/
theorem flushWaits_of_waits (h : Locked s) (hwaits : FifoLock.Waits s.locks .stream i)
    (hask : s.queueLock.modeOf i ≠ none) : s.FlushWaits := by
  obtain ⟨u, hblocks⟩ := hwaits
  have hno : s.streamLock.holds i = false := by
    cases hholds : s.streamLock.holds i with
    | true => exact absurd hblocks (not_blocks_of_holds hholds)
    | false => rfl
  obtain ⟨mode, mode', hmode, -, -⟩ := hblocks
  rw [h.queue] at hask
  have hstream := h.stream i
  rw [show s.streamLock.modeOf i = some mode from hmode] at hstream
  cases hcall : s.calls[i]? with
  | none =>
    rw [hcall] at hask
    exact absurd rfl hask
  | some call =>
    rw [hcall, bind_some] at hask hstream
    have hhas := h.hasStream i call hcall
    rw [hno] at hhas
    refine ⟨i, call, hcall, ?_, hno⟩
    -- the other points with both requests have the stream
    cases hpoint : call.point <;>
      simp_all [Point.queueRequest, Point.streamRequest, Point.hasStream]

/-- A circle needs both. -/
theorem waits_of_deadlock (h : Locked s) (hdead : s.Deadlock) : s.HoldWaits ∧ s.FlushWaits := by
  constructor
  · by_contra hno
    -- without such a `send`, the queue comes before the stream
    refine not_cyclic_of_ordered
      (fun name => match name with | .queue => 0 | .stream => 1) ?_ hdead
    intro i a b hwaits hask hne
    cases a with
    | queue =>
      cases b with
      | queue => exact absurd rfl hne
      | stream => exact absurd (holdWaits_of_waits h hwaits hask) hno
    | stream =>
      cases b with
      | queue => exact Nat.zero_lt_one
      | stream => exact absurd rfl hne
  · by_contra hno
    -- without such a flush, the stream comes before the queue
    refine not_cyclic_of_ordered
      (fun name => match name with | .queue => 1 | .stream => 0) ?_ hdead
    intro i a b hwaits hask hne
    cases a with
    | queue =>
      cases b with
      | queue => exact absurd rfl hne
      | stream => exact Nat.zero_lt_one
    | stream =>
      cases b with
      | queue => exact absurd (flushWaits_of_waits h hwaits hask) hno
      | stream => exact absurd rfl hne

/-- Both make a circle: the `send` waits for the flush, the flush for a writer, and the writer
for the `send`. -/
theorem deadlock_of_waits (h : Locked s) (hhold : s.HoldWaits) (hflush : s.FlushWaits) :
    s.Deadlock := by
  obtain ⟨i, ci, hci, hpi, hwi⟩ := hhold
  obtain ⟨j, cj, hcj, hpj, hwj⟩ := hflush
  have hqi : s.queueLock.modeOf i = some .exclusive := by
    rw [h.queue, hci, bind_some, hpi]
    rfl
  have hqj : s.queueLock.modeOf j = some .exclusive := by
    rw [h.queue, hcj, bind_some, hpj]
    rfl
  have hsi : s.streamLock.modeOf i = some .shared := by
    rw [h.stream, hci, bind_some, hpi]
    rfl
  have hsj : s.streamLock.modeOf j = some .shared := by
    rw [h.stream, hcj, bind_some, hpj]
    rfl
  have hholdsj : s.queueLock.holds j = true := h.hasQueue j cj hcj (by rw [hpj]; rfl)
  have hholdsi : s.streamLock.holds i = true := h.hasStream i ci hci (by rw [hpi]; rfl)
  have hne : i ≠ j := by
    rintro rfl
    rw [hwi] at hholdsj
    cases hholdsj
  have hij : FifoLock.WaitsFor s.locks i j := by
    refine ⟨.queue, .exclusive, .exclusive, hqi, ?_, rfl⟩
    rcases ahead_total hne hqi hqj with hahead | hahead
    · exact absurd ⟨_, _, hqj, hahead, rfl⟩ (not_blocks_of_holds hholdsj)
    · exact hahead
  obtain ⟨w, mode, mode', hmode, hmem, hconf⟩ := exists_blocks hsj hwj
  have hjw : FifoLock.WaitsFor s.locks j w := ⟨.stream, mode, mode', hmode, hmem, hconf⟩
  cases hsj.symm.trans hmode
  have hwriter : mode' = .exclusive := by
    cases mode' with
    | shared => cases hconf
    | exclusive => rfl
  subst hwriter
  have hsw : s.streamLock.modeOf w = some .exclusive :=
    h.streamSingle.modeOf_of_mem (List.takeWhile_sublist _ |>.subset hmem)
  have hwne : i ≠ w := by
    rintro rfl
    rw [hsi] at hsw
    cases hsw
  have hwi' : FifoLock.WaitsFor s.locks w i := by
    refine ⟨.stream, .exclusive, .shared, hsw, ?_, rfl⟩
    rcases ahead_total hwne hsi hsw with hahead | hahead
    · exact hahead
    · exact absurd ⟨_, _, hsi, hahead, rfl⟩ (not_blocks_of_holds hholdsi)
  exact ⟨i, .head hij (.head hjw (.single hwi'))⟩

theorem deadlock_iff (h : Locked s) : s.Deadlock ↔ s.HoldWaits ∧ s.FlushWaits :=
  ⟨waits_of_deadlock h, fun hboth => deadlock_of_waits h hboth.1 hboth.2⟩

/-! ## What a step does to the waiting -/

variable {a : Action} {call : Call}

variable {t : State} {point : Point} {l : FifoLock ℕ} {j : ℕ}

/-- A turn that leads to the wait for the queue with the stream. -/
theorem Turn.of_holdQueue (h : Turn s i call a t point) (hpoint : point = .holdQueue) :
    a = .proceed i ∧ call.point = .enterHold ∧ t = s := by
  cases h
  case askHold hcall => exact ⟨rfl, hcall, rfl⟩
  case flushEmpty _ _ _ => cases hop : call.operation <;> rw [hop] at hpoint <;> cases hpoint
  case flushed _ => cases hop : call.operation <;> rw [hop] at hpoint <;> cases hpoint
  all_goals cases hpoint

/-- A turn that leads to the wait for the stream with the queue. -/
theorem Turn.of_flushStream (h : Turn s i call a t point) (hpoint : point = .flushStream) :
    a = .proceed i ∧ call.point = .flushQueue ∧ s.queueLock.holds i = true ∧ s.queue ≠ [] ∧
      t = s := by
  cases h
  case askStream hcall hholds hqueue => exact ⟨rfl, hcall, hholds, hqueue, rfl⟩
  case flushEmpty _ _ _ => cases hop : call.operation <;> rw [hop] at hpoint <;> cases hpoint
  case flushed _ => cases hop : call.operation <;> rw [hop] at hpoint <;> cases hpoint
  all_goals cases hpoint

/-- Whoever is not kept from a lock by the requests of before is not kept from it after another
call has gone on. -/
theorem holds_false_of_adjust {want : Option LockMode} (hne : j ≠ i)
    (h : (l.adjust i want).holds j = false) : l.holds j = false := by
  cases hl : l.holds j with
  | false => rfl
  | true =>
    rw [holds_adjust_of_ne want hne hl] at h
    cases h

variable {s' : State}

/-- Where a `send` with the stream comes to wait for the queue. -/
theorem holdWaits_of_step (hstep : s.step a = some s') (h : s'.HoldWaits) :
    s.HoldWaits ∨ ∃ i call, a = .proceed i ∧ s.calls[i]? = some call ∧ call.point = .enterHold := by
  obtain ⟨j, c, hc, hp, hw⟩ := h
  rcases step_cases hstep with ⟨operation, -, -, rfl⟩ | ⟨i, call, t, point, hcall, hturn, rfl⟩ |
    ⟨-, rfl⟩
  · rcases Components.of_getElem?_concat hc with ⟨-, rfl⟩ | hc
    · cases hp
    · exact .inl ⟨j, c, hc, hp, hw⟩
  · obtain ⟨-, hqueueLock, -⟩ := hturn.frame
    rcases hturn.of_getElem? hcall hc with ⟨-, rfl⟩ | ⟨hj, hc⟩
    · obtain ⟨rfl, hpoint, -⟩ := hturn.of_holdQueue hp
      exact .inr ⟨i, call, rfl, hcall, hpoint⟩
    · change (t.queueLock.adjust i point.queueRequest).holds j = false at hw
      rw [hqueueLock] at hw
      exact .inl ⟨j, c, hc, hp, holds_false_of_adjust hj hw⟩
  · exact .inl ⟨j, c, hc, hp, hw⟩

/-- Where a flush with the queue comes to wait for the stream. -/
theorem flushWaits_of_step (hl : Locked s) (hstep : s.step a = some s') (h : s'.FlushWaits) :
    s.FlushWaits ∨ ∃ i call, a = .proceed i ∧ s.calls[i]? = some call ∧
      call.point = .flushQueue ∧ s.queueLock.holds i = true ∧ s.queue ≠ [] ∧ s.WriterWaits := by
  obtain ⟨j, c, hc, hp, hw⟩ := h
  rcases step_cases hstep with ⟨operation, -, -, rfl⟩ | ⟨i, call, t, point, hcall, hturn, rfl⟩ |
    ⟨-, rfl⟩
  · rcases Components.of_getElem?_concat hc with ⟨-, rfl⟩ | hc
    · cases hp
    · exact .inl ⟨j, c, hc, hp, hw⟩
  · obtain ⟨-, -, hstreamLock⟩ := hturn.frame
    change (t.streamLock.adjust i point.streamRequest).holds j = false at hw
    rw [hstreamLock] at hw
    rcases hturn.of_getElem? hcall hc with ⟨rfl, rfl⟩ | ⟨hj, hc⟩
    · obtain ⟨rfl, hpoint, hholds, hqueue, -⟩ := hturn.of_flushStream hp
      have hask : s.streamLock.modeOf j = none := by
        rw [hl.stream, hcall, bind_some, hpoint]
        rfl
      refine .inr ⟨j, call, rfl, hcall, hpoint, hholds, hqueue, ?_⟩
      -- the reader that has just asked is kept waiting by a writer
      change point = .flushStream at hp
      rw [hp] at hw
      have hmode := modeOf_append_self .shared hask
      have hadjust : s.streamLock.adjust j Point.flushStream.streamRequest =
          s.streamLock ++ [(j, .shared)] :=
        adjust_of_none _ hask
      rw [hadjust] at hw
      obtain ⟨w, mode, mode', hm, hmem, hconf⟩ := exists_blocks hmode hw
      cases hmode.symm.trans hm
      have hwriter : mode' = .exclusive := by
        cases mode' with
        | shared => cases hconf
        | exclusive => rfl
      subst hwriter
      rcases List.mem_append.mp (List.takeWhile_sublist _ |>.subset hmem) with hin | hin
      · exact ⟨w, hin⟩
      · cases List.mem_singleton.mp hin
    · exact .inl ⟨j, c, hc, hp, holds_false_of_adjust hj hw⟩
  · exact .inl ⟨j, c, hc, hp, hw⟩

/-- A lock that is held exclusively is not had by who asks for it then. -/
theorem holds_append_false {mode : LockMode} (hask : l.modeOf i = none)
    (hmem : (j, LockMode.exclusive) ∈ l) : (l ++ [(i, mode)]).holds i = false := by
  cases hholds : (l ++ [(i, mode)]).holds i with
  | false => rfl
  | true =>
    obtain ⟨m, hm, hfree⟩ := holds_iff.mp hholds
    have hahead : ahead (l ++ [(i, mode)]) i = l := by
      unfold ahead
      rw [List.takeWhile_append_of_pos]
      · simp
      · intro r hr
        have hnot := not_mem_of_modeOf hask
        have hne : r.1 ≠ i := by
          rintro rfl
          exact hnot (List.mem_map_of_mem (f := Prod.fst) hr)
        exact decide_eq_true hne
    rw [hahead] at hfree
    have hno := hfree _ hmem
    cases m <;> cases hno

/-- The step that closes the circle: a `send` with the stream asks for the queue. -/
theorem closes_of_enterHold (hl : Locked s) (hstep : s.step (.proceed i) = some s')
    (hcall : s.calls[i]? = some call) (hpoint : call.point = .enterHold) (hflush : s.FlushWaits) :
    s'.HoldWaits ∧ s'.FlushWaits := by
  have hs' : s' = s.goto i call .holdQueue := by
    rw [step, hcall, bind_some, proceed] at hstep
    simp only [hpoint, some.injEq] at hstep
    exact hstep.symm
  subst hs'
  obtain ⟨j, c, hc, hp, hw⟩ := hflush
  have hj : j ≠ i := by
    rintro rfl
    rw [hcall, some.injEq] at hc
    rw [← hc, hpoint] at hp
    cases hp
  constructor
  · refine ⟨i, { call with point := .holdQueue }, ?_, rfl, ?_⟩
    · rw [getElem?_goto _ hcall, if_pos rfl]
    · have hask : s.queueLock.modeOf i = none := by
        rw [hl.queue, hcall, bind_some, hpoint]
        rfl
      have hadjust : s.queueLock.adjust i Point.holdQueue.queueRequest =
          s.queueLock ++ [(i, .exclusive)] :=
        adjust_of_none _ hask
      show (s.queueLock.adjust i Point.holdQueue.queueRequest).holds i = false
      rw [hadjust]
      apply holds_append_false hask
      apply mem_of_modeOf
      rw [hl.queue, hc, bind_some, hp]
      rfl
  · refine ⟨j, c, ?_, hp, ?_⟩
    · rw [getElem?_goto _ hcall, if_neg hj, hc]
    · show (s.streamLock.adjust i Point.holdQueue.streamRequest).holds j = false
      rw [adjust_of_modeOf, hw]
      rw [hl.stream, hcall, bind_some, hpoint]
      rfl

/-- The step that closes the circle: a flush with the queue asks for the stream. -/
theorem closes_of_flushQueue (hl : Locked s) (hstep : s.step (.proceed i) = some s')
    (hcall : s.calls[i]? = some call) (hpoint : call.point = .flushQueue)
    (hholds : s.queueLock.holds i = true) (hqueue : s.queue ≠ []) (hwriter : s.WriterWaits)
    (hhold : s.HoldWaits) : s'.HoldWaits ∧ s'.FlushWaits := by
  have hs' : s' = s.goto i call .flushStream := by
    rw [step, hcall, bind_some, proceed] at hstep
    simp only [hpoint, if_pos hholds, if_neg hqueue, some.injEq] at hstep
    exact hstep.symm
  subst hs'
  obtain ⟨j, c, hc, hp, hw⟩ := hhold
  have hj : j ≠ i := by
    rintro rfl
    rw [hcall, some.injEq] at hc
    rw [← hc, hpoint] at hp
    cases hp
  constructor
  · refine ⟨j, c, ?_, hp, ?_⟩
    · rw [getElem?_goto _ hcall, if_neg hj, hc]
    · show (s.queueLock.adjust i Point.flushStream.queueRequest).holds j = false
      rw [adjust_of_modeOf, hw]
      rw [hl.queue, hcall, bind_some, hpoint]
      rfl
  · refine ⟨i, { call with point := .flushStream }, ?_, rfl, ?_⟩
    · rw [getElem?_goto _ hcall, if_pos rfl]
    · have hask : s.streamLock.modeOf i = none := by
        rw [hl.stream, hcall, bind_some, hpoint]
        rfl
      have hadjust : s.streamLock.adjust i Point.flushStream.streamRequest =
          s.streamLock ++ [(i, .shared)] :=
        adjust_of_none _ hask
      obtain ⟨w, hw⟩ := hwriter
      show (s.streamLock.adjust i Point.flushStream.streamRequest).holds i = false
      rw [hadjust]
      exact holds_append_false hask hw

/-! ## Runs -/

/-- The calls never wait on each other in a circle, in the runs in which no step closes one. -/
theorem never_deadlocks_iff (run : List Action) :
    Throughout State.step (fun s => ¬ s.Deadlock) State.connected run ↔
      EachStep State.step StaysOpen State.connected run := by
  apply throughout_iff_eachStep (I := fun s => Locked s ∧ ¬ s.Deadlock)
  · exact fun s h => h.2
  · rintro s a s' ⟨hl, hno⟩ hstep
    have hl' := hl.step hstep
    rw [deadlock_iff hl] at hno
    by_cases hdead : s'.Deadlock
    · refine .inr ⟨?_, not_not_intro hdead⟩
      intro hopen
      obtain ⟨hhold', hflush'⟩ := (deadlock_iff hl').mp hdead
      rcases holdWaits_of_step hstep hhold' with hhold | ⟨i, call, rfl, hcall, hpoint⟩
      · rcases flushWaits_of_step hl hstep hflush' with hflush |
          ⟨i, call, rfl, hcall, hpoint, hholds, hqueue, hwriter⟩
        · exact hno ⟨hhold, hflush⟩
        · exact (hopen i call rfl hcall).2 hpoint hholds hqueue hwriter hhold
      · rcases flushWaits_of_step hl hstep hflush' with hflush |
          ⟨j, c, hj, hc, hp, -, -, -⟩
        · exact (hopen i call rfl hcall).1 hpoint hflush
        · -- one call is not at two points
          rw [Action.proceed.injEq] at hj
          subst hj
          rw [hcall, some.injEq] at hc
          rw [← hc, hpoint] at hp
          cases hp
    · refine .inl ⟨?_, hl', hdead⟩
      rintro i call rfl hcall
      refine ⟨?_, ?_⟩
      · intro hpoint hflush
        exact hdead ((deadlock_iff hl').mpr (closes_of_enterHold hl hstep hcall hpoint hflush))
      · intro hpoint hholds hqueue hwriter hhold
        exact hdead ((deadlock_iff hl').mpr
          (closes_of_flushQueue hl hstep hcall hpoint hholds hqueue hwriter hhold))
  · refine ⟨locked_connected, ?_⟩
    rw [deadlock_iff locked_connected]
    rintro ⟨⟨i, call, hcall, -⟩, -⟩
    cases hcall

/-- A `send` (0) whose write task has ended, a `restart` (1), a signal that is queued meanwhile
(2), and a `send` (3) that saw no reconnect and flushes it. -/
def deadlockRun : List Action :=
  [.call (.send 0 .mute), .proceed 0, .proceed 0, .proceed 0, .proceed 0, .proceed 0,
    .writeTaskEnds, .written 0 .sendError,
    .call .restart, .call (.send 1 .mute), .call (.send 2 .mute), .proceed 3,
    .proceed 1, .proceed 1, .proceed 2, .proceed 2, .proceed 2,
    .proceed 3, .proceed 3, .proceed 0]

/-- The first `send` has the stream and waits for the queue, the last one has the queue and waits
for the stream, and `restart` waits between them. -/
theorem signal_client_deadlocks :
    ∃ s, exec State.step State.connected deadlockRun = some s ∧ s.Deadlock := by
  refine ⟨_, rfl, 0, .head (b := 3) ?_ (.head (b := 1) ?_ (.single ?_))⟩
  · exact ⟨.queue, .exclusive, .exclusive, rfl, by decide, rfl⟩
  · exact ⟨.stream, .shared, .exclusive, rfl, by decide, rfl⟩
  · exact ⟨.stream, .exclusive, .shared, rfl, by decide, rfl⟩

end LiveKit.SignalClient
