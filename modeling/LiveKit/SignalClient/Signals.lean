import LiveKit.Lib.Counting
import LiveKit.SignalClient.Steps

/-!
# Where a signal is

A queueable signal that has been handed to `send` is carried by that call, then it is in the
queue, in the hands of a flush, or on the wire. `Turn.effect` sorts the turns by what they do to
signals; `State.places` counts the places at which one is.
-/

namespace LiveKit.SignalClient

open State

/-- At this point `send` still has its signal. -/
def Point.carries : Point → Bool
  | .start => true
  | .enterPush => true
  | .pushQueue => true
  | .enterFlush => true
  | .flushQueue => true
  | .flushStream => true
  | .flushing => true
  | .flushSend _ => true
  | .unlockQueue => true
  | .enterRead => true
  | .readStream => true
  | .sending => true
  | .enterHold => true
  | .holdQueue => true
  | _ => false

/-- At this point the signal of `send` is to be queued. -/
def Point.queues : Point → Bool
  | .enterPush => true
  | .pushQueue => true
  | .enterHold => true
  | .holdQueue => true
  | _ => false

/-- The signal in the hands of a flush. -/
def Point.inHand : Point → Option ℕ
  | .flushSend signal => some signal
  | _ => none

/-- The call hands over a queueable signal and still has it. -/
def Call.carries (call : Call) : Bool := Queueable call.operation && call.point.carries

/-- What a turn of the call `i` does to signals. -/
inductive Effect (s : State) (i : ℕ) (call : Call) (a : Action) (t : State) (point : Point) : Prop
  /-- Nothing. -/
  | quiet (hqueue : t.queue = s.queue) (hwire : t.wire = s.wire)
      (hcarries : Queueable call.operation = true → point.carries = call.point.carries)
      (hbefore : call.point.inHand = none) (hafter : point.inHand = none)
      (hresult : call.point = .sending → a ≠ .written i .wsError)
  /-- The call puts its signal into the queue. -/
  | push (hqueue : t.queue = s.queue ++ [i]) (hwire : t.wire = s.wire)
      (hbefore : call.point = .pushQueue ∨ call.point = .holdQueue)
      (hafter : point = .done ∨ point = .unlockRead)
  /-- A flush takes a signal from the queue. -/
  | take (signal : ℕ) (hqueue : s.queue = signal :: t.queue) (hwire : t.wire = s.wire)
      (hbefore : call.point = .flushing) (hafter : point = .flushSend signal)
  /-- A flush has written the signal. -/
  | flushOk (signal : ℕ) (hqueue : t.queue = s.queue) (hwire : t.wire = s.wire ++ [signal])
      (hbefore : call.point = .flushSend signal) (hafter : point = .flushing)
      (hresult : a = .written i .ok)
  /-- A flush has failed to write the signal. -/
  | flushLost (signal : ℕ) (result : SendResult) (hqueue : t.queue = s.queue)
      (hwire : t.wire = s.wire) (hbefore : call.point = .flushSend signal)
      (hafter : point = .flushing) (hresult : a = .written i result) (hbad : result ≠ .ok)
  /-- The call has written its signal. -/
  | sendOk (hqueue : t.queue = s.queue) (hwire : t.wire = s.wire ++ [i])
      (hbefore : call.point = .sending) (hafter : point = .unlockRead)
      (hresult : a = .written i .ok)
  /-- The websocket has refused the signal of the call. -/
  | sendLost (hqueue : t.queue = s.queue) (hwire : t.wire = s.wire)
      (hbefore : call.point = .sending) (hafter : point = .unlockRead)
      (hresult : a = .written i .wsError)

@[simp] theorem inHand_afterFlush (operation : Operation) :
    (afterFlush operation).inHand = none := by
  cases operation <;> rfl

theorem carries_afterFlush {operation : Operation} (h : Queueable operation = true) :
    (afterFlush operation).carries = true := by
  cases operation <;> first | rfl | cases h

variable {s t s' : State} {i : ℕ} {call : Call} {a : Action} {point : Point}

theorem Turn.effect (h : Turn s i call a t point) : Effect s i call a t point := by
  cases h
  case pushed hpoint _ => exact .push rfl rfl (.inl hpoint) (.inl rfl)
  case held hpoint _ => exact .push rfl rfl (.inr hpoint) (.inr rfl)
  case take signal _ hpoint hqueue => exact .take signal hqueue rfl hpoint rfl
  case flushOk signal hpoint => exact .flushOk signal rfl rfl hpoint rfl rfl
  case flushError signal result _ hpoint hresult =>
    exact .flushLost signal result rfl rfl hpoint rfl rfl hresult
  case sendOk hpoint => exact .sendOk rfl rfl hpoint rfl rfl
  case sendLost result stream hpoint hbad hlost =>
    rcases hlost with rfl | hpass
    · exact .sendLost rfl rfl hpoint rfl rfl
    · by_cases hws : result = .wsError
      · subst hws
        exact .sendLost rfl rfl hpoint rfl rfl
      · refine .quiet rfl rfl ?_ (by rw [hpoint]; rfl) rfl ?_
        · intro hqueueable
          rw [hpass] at hqueueable
          cases hqueueable
        · intro _ heq
          rw [Action.written.injEq] at heq
          exact hws heq.2
  case write reconnecting hpoint hoperation =>
    refine .quiet rfl rfl ?_ (by rw [hpoint]; rfl) rfl (fun _ => Action.noConfusion)
    intro hqueueable
    cases hop : call.operation with
    | send caller signal => exact absurd hop (hoperation caller signal)
    | _ =>
      rw [hop] at hqueueable
      cases hqueueable
  case flushEmpty hpoint _ _ =>
    refine .quiet rfl rfl ?_ (by rw [hpoint]; rfl) (inHand_afterFlush _)
      (fun _ => Action.noConfusion)
    intro hqueueable
    rw [carries_afterFlush hqueueable, hpoint]
    rfl
  case flushed hpoint =>
    refine .quiet rfl rfl ?_ (by rw [hpoint]; rfl) (inHand_afterFlush _)
      (fun _ => Action.noConfusion)
    intro hqueueable
    rw [carries_afterFlush hqueueable, hpoint]
    rfl
  case dropped hpoint _ hpass =>
    refine .quiet rfl rfl ?_ (by rw [hpoint]; rfl) rfl (fun _ => Action.noConfusion)
    intro hqueueable
    rw [hpass] at hqueueable
    cases hqueueable
  case sendHold hpoint _ =>
    refine .quiet rfl rfl (fun _ => by rw [hpoint]; rfl) (by rw [hpoint]; rfl) rfl ?_
    intro _ heq
    cases heq
  -- the others leave the signals alone
  all_goals
    exact .quiet rfl rfl (fun _ => by simp_all [Point.carries]) (by simp_all [Point.inHand]) rfl
      (fun _ => Action.noConfusion)

/-! ## What is queued may be queued -/

/-- The call hands over a queueable signal. -/
def State.QueueableAt (s : State) (i : ℕ) : Prop :=
  ∃ call, s.calls[i]? = some call ∧ Queueable call.operation = true

/-- Only queueable signals come into the queue. -/
structure Queued (s : State) : Prop where
  queues : ∀ (i : ℕ) call, s.calls[i]? = some call → call.point.queues = true →
    Queueable call.operation = true
  queue : ∀ i ∈ s.queue, s.QueueableAt i
  inHand : ∀ (i : ℕ) call signal, s.calls[i]? = some call → call.point.inHand = some signal →
    s.QueueableAt signal

theorem queued_connected : Queued State.connected where
  queues := fun _ _ hcall => by cases hcall
  queue := fun _ hmem => by cases hmem
  inHand := fun _ _ _ hcall => by cases hcall

/-- What a call hands over does not change. -/
theorem QueueableAt.step {j : ℕ} (hstep : s.step a = some s') (h : s.QueueableAt j) :
    s'.QueueableAt j := by
  obtain ⟨c, hc, hqueueable⟩ := h
  rcases step_cases hstep with ⟨operation, -, -, rfl⟩ | ⟨i, call, t, point, hcall, hturn, rfl⟩ |
    ⟨-, rfl⟩
  · refine ⟨c, ?_, hqueueable⟩
    rw [Components.getElem?_concat, if_neg (Components.ne_length hc), hc]
  · obtain ⟨hcalls, -, -⟩ := hturn.frame
    by_cases hj : j = i
    · subst hj
      rw [hcall, Option.some.injEq] at hc
      subst hc
      refine ⟨{ call with point }, ?_, hqueueable⟩
      rw [getElem?_goto point (by rw [hcalls, hcall]), if_pos rfl]
    · refine ⟨c, ?_, hqueueable⟩
      rw [getElem?_goto point (by rw [hcalls, hcall]), if_neg hj, hcalls, hc]
  · exact ⟨c, hc, hqueueable⟩

@[simp] theorem queues_afterFlush (operation : Operation) :
    (afterFlush operation).queues = false := by
  cases operation <;> rfl

/-- A call that is to queue its signal was so before, or may queue it. -/
theorem Turn.queues (h : Turn s i call a t point) (hqueues : point.queues = true) :
    call.point.queues = true ∨ Queueable call.operation = true := by
  cases h
  case push _ hqueueable => exact .inr hqueueable
  case hold _ _ hqueueable => exact .inr hqueueable
  case sendHold _ hqueueable => exact .inr hqueueable
  case askPush hpoint => exact .inl (by rw [hpoint]; rfl)
  case askHold hpoint => exact .inl (by rw [hpoint]; rfl)
  case flushEmpty _ _ _ => rw [queues_afterFlush] at hqueues; cases hqueues
  case flushed _ => rw [queues_afterFlush] at hqueues; cases hqueues
  all_goals cases hqueues

theorem Queued.step (h : Queued s) (hstep : s.step a = some s') :
    Queued s' := by
  have hkeep : ∀ j, s.QueueableAt j → s'.QueueableAt j := fun j => QueueableAt.step hstep
  rcases step_cases hstep with ⟨operation, -, -, rfl⟩ | ⟨i, call, t, point, hcall, hturn, rfl⟩ |
    ⟨-, rfl⟩
  · refine ⟨?_, fun j hj => hkeep j (h.queue j hj), ?_⟩
    · exact Components.forall_concat h.queues nofun
    · intro j c signal hc hhand
      rcases Components.of_getElem?_concat hc with ⟨-, rfl⟩ | hc
      · cases hhand
      · exact hkeep signal (h.inHand j c signal hc hhand)
  · refine ⟨?_, ?_, ?_⟩
    · intro j c hc hqueues
      rcases hturn.of_getElem? hcall hc with ⟨-, rfl⟩ | ⟨-, hc⟩
      · rcases hturn.queues hqueues with hbefore | hqueueable
        · exact h.queues i call hcall hbefore
        · exact hqueueable
      · exact h.queues j c hc hqueues
    · intro j hj
      apply hkeep
      -- a signal in the queue was there before, or is the one pushed
      change j ∈ t.queue at hj
      cases hturn.effect with
      | push hqueue _ hbefore _ =>
        rw [hqueue] at hj
        rcases List.mem_append.mp hj with hj | hj
        · exact h.queue j hj
        · rw [List.mem_singleton] at hj
          subst hj
          refine ⟨call, hcall, h.queues j call hcall ?_⟩
          rcases hbefore with hbefore | hbefore
          · rw [hbefore]
            rfl
          · rw [hbefore]
            rfl
      | take signal hqueue _ _ _ =>
        apply h.queue
        rw [hqueue]
        exact List.mem_cons_of_mem signal hj
      | quiet hqueue | flushOk _ hqueue | flushLost _ _ hqueue | sendOk hqueue | sendLost hqueue =>
        exact h.queue j (hqueue ▸ hj)
    · intro j c signal hc hhand
      apply hkeep
      rcases hturn.of_getElem? hcall hc with ⟨-, rfl⟩ | ⟨-, hc⟩
      · -- a signal in hand was taken from the queue
        change point.inHand = some signal at hhand
        cases hturn.effect with
        | take signal' hqueue _ _ hafter =>
          rw [hafter, Point.inHand, Option.some.injEq] at hhand
          subst hhand
          apply h.queue
          rw [hqueue]
          exact List.mem_cons_self
        | quiet _ _ _ _ hafter =>
          rw [hafter] at hhand
          cases hhand
        | push _ _ _ hafter => rcases hafter with rfl | rfl <;> cases hhand
        | flushOk _ _ _ _ hafter | flushLost _ _ _ _ _ hafter | sendOk _ _ _ hafter
        | sendLost _ _ _ hafter => subst hafter; cases hhand
      · exact h.inHand j c signal hc hhand
  · exact ⟨h.queues, fun j hj => hkeep j (h.queue j hj),
      fun j c signal hc hhand => hkeep signal (h.inHand j c signal hc hhand)⟩

end LiveKit.SignalClient
