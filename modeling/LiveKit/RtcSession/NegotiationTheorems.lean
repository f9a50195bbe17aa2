import LiveKit.RtcSession.Negotiation

/-!
# Negotiation requests and the tasks that take them up

A request is taken up by a task that has not made up its mind to end. The task of the queue makes
up its mind under the lock, but a caller may have looked at `waiting_for_answer` before that, and
`task_running` is cleared after it; a debounce task keeps its channel until it ends, though it does
not read it any more once its timer has fired. A request that comes in one of these windows is
left where nobody looks.
-/

namespace LiveKit.RtcSession.Negotiation

open TransitionSystem Option

namespace State

/-- The task of the queue will look at the state of the queue once more. -/
def InLoop (s : State) : Prop := s.worker ≠ none ∧ s.worker ≠ some .leaving

/-- The debounce task has yet to start its offer, or there is none. -/
def BeforeOffer (s : State) : Prop :=
  s.negotiationDebouncer ≠ some .creatingOffer ∧ s.negotiationDebouncer ≠ some .leaving

/-- What a caller does here reaches a task that will take it up: one that marks the queue finds
its task in the loop, one that queues does not find it on its way out, and one that calls the
debouncer does not find its timer gone off. -/
def TakenUp (s : State) : Action → Prop
  | .markForRetry => s.InLoop
  | .queueNegotiation => s.worker ≠ some .leaving
  | .publisherNegotiationNeeded => s.fastPublish = true ∨ s.BeforeOffer
  | _ => True

/-- The next offer is on its way. -/
def OfferAhead (s : State) : Prop :=
  0 < s.marking ∨ 0 < s.queueing ∨ s.negotiationQueue.state = .pendingRetry ∨
    s.worker = some .starting ∨ s.worker = some .ready ∨
    (s.negotiationDebouncer ≠ none ∧ s.BeforeOffer)

instance (s : State) : Decidable s.InLoop := inferInstanceAs (Decidable (_ ∧ _))

instance (s : State) : Decidable s.BeforeOffer := inferInstanceAs (Decidable (_ ∧ _))

instance (s : State) : (a : Action) → Decidable (s.TakenUp a)
  | .publisherNegotiationNeeded => inferInstanceAs (Decidable (_ ∨ _))
  | .markForRetry => inferInstanceAs (Decidable s.InLoop)
  | .queueNegotiation => inferInstanceAs (Decidable (_ ≠ _))
  | .work | .notified | .timeout | .receiveCall | .wake | .negotiate | .answerReceived
  | .answerApplied _ | .handleAnswer => isTrue trivial

instance (s : State) : Decidable s.Quiescent := inferInstanceAs (Decidable (_ ∧ _))

/-- The state of the queue says whether its task is in the loop. -/
structure QueueInv (s : State) : Prop where
  busy : s.InLoop → s.negotiationQueue.state ≠ .idle
  idle : ¬ s.InLoop → s.negotiationQueue.state = .idle
  running : s.negotiationQueue.taskRunning = s.worker.isSome

theorem QueueInv.new (fastPublish : Bool) : QueueInv (new fastPublish) where
  busy h := absurd rfl h.1
  idle _ := rfl
  running := rfl

/-- The queue and its task are as before. -/
structure SameQueue (s s' : State) : Prop where
  worker : s'.worker = s.worker
  state : s'.negotiationQueue.state = s.negotiationQueue.state
  running : s'.negotiationQueue.taskRunning = s.negotiationQueue.taskRunning

variable {s s' : State}

theorem QueueInv.congr (h : QueueInv s) (hsame : SameQueue s s') :
    QueueInv s' where
  busy hloop := by
    unfold InLoop at hloop
    rw [hsame.worker] at hloop
    rw [hsame.state]
    exact h.busy hloop
  idle hloop := by
    unfold InLoop at hloop
    rw [hsame.worker] at hloop
    rw [hsame.state]
    exact h.idle hloop
  running := by rw [hsame.running, hsame.worker, h.running]

/-- The task goes from one place in the loop to another. -/
theorem QueueInv.inLoop (h : QueueInv s) (hloop : s.InLoop) (hloop' : s'.InLoop)
    (hstate : s'.negotiationQueue.state = s.negotiationQueue.state)
    (hrunning : s'.negotiationQueue.taskRunning = s.negotiationQueue.taskRunning) :
    QueueInv s' where
  busy _ := by
    rw [hstate]
    exact h.busy hloop
  idle hnot := absurd hloop' hnot
  running := by
    rw [hrunning, h.running, isSome_iff_ne_none.mpr hloop.1,
      isSome_iff_ne_none.mpr hloop'.1]

/-! ## What a step does to the queue -/

/-- The state of the queue that `queue_negotiation` leaves behind, with the task. -/
theorem queueNegotiation_spec (h : QueueInv s) (htaken : s.worker ≠ some .leaving) :
    QueueInv s.queueNegotiation ∧ s.queueNegotiation.OfferAhead := by
  unfold queueNegotiation
  cases hworker : s.worker with
  | none =>
    -- no task: one is started
    have hnot : ¬ s.InLoop := fun hloop => hloop.1 hworker
    have hrunning : s.negotiationQueue.taskRunning = false := by
      rw [h.running, hworker]
      rfl
    rw [h.idle hnot, hrunning]
    refine ⟨⟨fun _ => ?_, fun hloop => ?_, rfl⟩, ?_⟩
    · intro hstate
      cases hstate
    · exact absurd ⟨some_ne_none _, by simp⟩ hloop
    · exact .inr (.inr (.inr (.inl rfl)))
  | some w =>
    have hloop : s.InLoop := by
      refine ⟨?_, htaken⟩
      rw [hworker]
      exact some_ne_none w
    have hbusy := h.busy hloop
    cases hstate : s.negotiationQueue.state with
    | idle => exact absurd hstate hbusy
    | inProgress =>
      refine ⟨⟨fun _ => ?_, fun hnot => absurd hloop hnot, h.running⟩, ?_⟩
      · intro hidle
        cases hidle
      · exact .inr (.inr (.inl rfl))
    | pendingRetry => exact ⟨h, .inr (.inr (.inl hstate))⟩

/-- The task looks at the state of the queue for the last time before it goes on or ends. -/
theorem retryOrFinish_inv (h : QueueInv s) (hworker : s.worker = some .deciding) :
    QueueInv s.retryOrFinish := by
  have hrunning : s.negotiationQueue.taskRunning = true := by
    rw [h.running, hworker]
    rfl
  unfold retryOrFinish
  split
  · refine ⟨fun _ => ?_, fun hnot => ?_, hrunning⟩
    · intro hidle
      cases hidle
    · exact absurd ⟨some_ne_none _, by simp⟩ hnot
  · exact ⟨fun hloop => absurd rfl hloop.2, fun _ => rfl, hrunning⟩

/-- What a step can do to the queue and its task. -/
inductive Turn (s : State) : Action → State → Prop
  | marked :
    Turn s .markForRetry { s with
      negotiationQueue := { s.negotiationQueue with state := .pendingRetry }
      marking := s.marking - 1 }
  | queued : Turn s .queueNegotiation { s with queueing := s.queueing - 1 }.queueNegotiation
  | worked {s' : State} (w : Worker) (hw : s.worker = some w) (hwork : s.work w = some s') :
    Turn s .work s'
  | woken {a : Action} {s' : State} (hselecting : s.worker = some .selecting)
    (hloop : s'.InLoop) (hstate : s'.negotiationQueue.state = s.negotiationQueue.state)
    (hrunning : s'.negotiationQueue.taskRunning = s.negotiationQueue.taskRunning) : Turn s a s'
  | other {a : Action} {s' : State} (hsame : SameQueue s s') : Turn s a s'

variable {a : Action}

theorem step_cases (hstep : s.step a = some s') : s.Turn a s' := by
  unfold State.step at hstep
  cases a with
  | publisherNegotiationNeeded =>
    simp only [some.injEq] at hstep
    subst hstep
    -- the queue is looked at later, under its lock
    apply Turn.other
    unfold publisherNegotiationNeeded debounceNegotiation
    split_ifs
    · exact ⟨rfl, rfl, rfl⟩
    · exact ⟨rfl, rfl, rfl⟩
    · split <;> exact ⟨rfl, rfl, rfl⟩
  | markForRetry =>
    obtain ⟨-, rfl⟩ := of_guard hstep
    exact .marked
  | queueNegotiation =>
    obtain ⟨-, rfl⟩ := of_guard hstep
    exact .queued
  | work =>
    obtain ⟨w, hw, hwork⟩ := bind_eq_some_iff.mp hstep
    exact .worked w hw hwork
  | notified =>
    obtain ⟨hselecting, rfl⟩ := of_guard hstep
    exact .woken hselecting.1 ⟨by simp, by simp⟩ rfl rfl
  | timeout =>
    simp only at hstep
    split at hstep
    · next hselecting =>
      cases hstep
      exact .woken hselecting ⟨by simp, by simp⟩ rfl rfl
    · cases hstep
  | receiveCall | wake =>
    simp only at hstep
    split at hstep
    · cases hstep
      exact .other ⟨rfl, rfl, rfl⟩
    · cases hstep
  | negotiate =>
    obtain ⟨d, -, hnegotiate⟩ := bind_eq_some_iff.mp hstep
    unfold State.negotiate at hnegotiate
    split at hnegotiate
    · cases hnegotiate
    all_goals
      cases hnegotiate
      exact .other ⟨rfl, rfl, rfl⟩
  | answerReceived | answerApplied =>
    obtain ⟨-, rfl⟩ := of_guard hstep
    exact .other ⟨rfl, rfl, rfl⟩
  | handleAnswer =>
    -- `waiting_for_answer` and the permit are not part of what the task is about to do
    obtain ⟨handler, -, hhandle⟩ := bind_eq_some_iff.mp hstep
    unfold State.handleAnswer at hhandle
    split at hhandle
    · cases hhandle
    · split at hhandle
      · cases hhandle
        exact .other ⟨rfl, rfl, rfl⟩
      · cases hhandle
        exact .other ⟨rfl, rfl, rfl⟩
    · cases hhandle
      exact .other ⟨rfl, rfl, rfl⟩

/-- The task is in the loop unless it is about to clear `task_running`. -/
theorem inLoop_of_worker {w : Worker} (hw : s.worker = some w) (hne : w ≠ .leaving) : s.InLoop := by
  refine ⟨?_, ?_⟩
  · rw [hw]
    exact some_ne_none w
  · rw [hw]
    exact fun heq => hne (some.inj heq)

theorem QueueInv.work {w : Worker} (h : QueueInv s) (hw : s.worker = some w)
    (hwork : s.work w = some s') : QueueInv s' := by
  unfold State.work at hwork
  cases w with
  | starting | ready | creatingOffer | timedOut =>
    cases hwork
    exact h.inLoop (inLoop_of_worker hw (by simp)) ⟨by simp, by simp⟩ rfl rfl
  | selecting => cases hwork
  | deciding =>
    cases hwork
    exact retryOrFinish_inv h hw
  | leaving =>
    cases hwork
    have hnot : ¬ s.InLoop := fun hloop => hloop.2 hw
    exact ⟨fun hloop => absurd rfl hloop.1, fun _ => h.idle hnot, rfl⟩

/-- A request that finds its task in time keeps the queue in order. -/
theorem QueueInv.step (h : QueueInv s) (hstep : s.step a = some s') (htaken : s.TakenUp a) :
    QueueInv s' := by
  cases step_cases hstep with
  | marked =>
    refine ⟨fun _ => ?_, fun hnot => absurd htaken hnot, h.running⟩
    intro hidle
    cases hidle
  | queued =>
    have hinv : QueueInv { s with queueing := s.queueing - 1 } := h.congr ⟨rfl, rfl, rfl⟩
    exact (queueNegotiation_spec hinv htaken).1
  | worked w hw hwork => exact h.work hw hwork
  | woken hselecting hloop' hstate hrunning =>
    exact h.inLoop (inLoop_of_worker hselecting (by simp)) hloop' hstate hrunning
  | other hsame => exact h.congr hsame

/-! ## What a step does to the requests -/

/-- The next offer is still ahead where a step does not touch the callers, and nothing else that
the offer may come from. -/
theorem OfferAhead.carry (h : s.OfferAhead) (hmarking : s'.marking = s.marking)
    (hqueueing : s'.queueing = s.queueing) (hstate : s.negotiationQueue.state = .pendingRetry →
      s'.negotiationQueue.state = .pendingRetry)
    (hworker : s.worker = some .starting ∨ s.worker = some .ready → s'.worker = s.worker)
    (hdebouncer : s.BeforeOffer → s'.negotiationDebouncer = s.negotiationDebouncer) :
    s'.OfferAhead := by
  unfold OfferAhead at h ⊢
  rw [hmarking, hqueueing]
  rcases h with h | h | h | h | h | h
  · exact .inl h
  · exact .inr (.inl h)
  · exact .inr (.inr (.inl (hstate h)))
  · rw [hworker (.inl h)]
    exact .inr (.inr (.inr (.inl h)))
  · rw [hworker (.inr h)]
    exact .inr (.inr (.inr (.inr (.inl h))))
  · unfold BeforeOffer at h ⊢
    rw [hdebouncer h.2]
    exact .inr (.inr (.inr (.inr (.inr h))))

theorem offerAhead_of_pendingRetry (h : s.negotiationQueue.state = .pendingRetry) :
    s.OfferAhead := .inr (.inr (.inl h))

theorem offerAhead_of_worker (h : s.worker = some .starting ∨ s.worker = some .ready) :
    s.OfferAhead := by
  rcases h with h | h
  · exact .inr (.inr (.inr (.inl h)))
  · exact .inr (.inr (.inr (.inr (.inl h))))

theorem offerAhead_of_debouncer (h : s.negotiationDebouncer ≠ none) (hbefore : s.BeforeOffer) :
    s.OfferAhead :=
  .inr (.inr (.inr (.inr (.inr ⟨h, hbefore⟩))))

/-- A call that finds no debounce task, or one that has yet to start its offer, has one ahead. -/
theorem debounceNegotiation_offerAhead (h : s.BeforeOffer) : s.debounceNegotiation.OfferAhead := by
  unfold debounceNegotiation
  split
  · exact offerAhead_of_debouncer (by simp) ⟨by simp, by simp⟩
  · exact offerAhead_of_debouncer (by simp) ⟨by simp, by simp⟩
  · next task _ htask =>
    refine offerAhead_of_debouncer ?_ h
    rw [htask]
    exact some_ne_none task

/-- The task of the queue does its next thing. -/
theorem work_offerAhead {w : Worker} (hw : s.worker = some w) (hwork : s.work w = some s')
    (hready : w ≠ .ready) (h : s.OfferAhead) : s'.OfferAhead := by
  unfold State.work at hwork
  cases w with
  | starting =>
    cases hwork
    exact offerAhead_of_worker (.inr rfl)
  | ready => exact absurd rfl hready
  | creatingOffer | timedOut | leaving =>
    cases hwork
    exact h.carry rfl rfl (fun hpending => hpending) (by simp [hw]) fun _ => rfl
  | selecting => cases hwork
  | deciding =>
    cases hwork
    unfold retryOrFinish
    split
    · exact offerAhead_of_worker (.inl rfl)
    · next hstate =>
      exact h.carry rfl rfl (fun hpending => absurd hpending hstate) (by simp [hw])
        fun _ => rfl

/-- The debounce task does its next thing. -/
theorem negotiate_offerAhead {d : DebounceTask} (hd : s.negotiationDebouncer = some d)
    (hnegotiate : s.negotiate d = some s') (hfired : d ≠ .fired) (h : s.OfferAhead) :
    s'.OfferAhead := by
  have hnot : d = .creatingOffer ∨ d = .leaving → ¬ s.BeforeOffer := by
    rintro (rfl | rfl) hbefore
    · exact hbefore.1 hd
    · exact hbefore.2 hd
  unfold State.negotiate at hnegotiate
  cases d with
  | sleeping calls => cases hnegotiate
  | fired => exact absurd rfl hfired
  | creatingOffer =>
    cases hnegotiate
    exact h.carry rfl rfl (fun hpending => hpending) (fun _ => rfl)
      fun hbefore => absurd hbefore (hnot (.inl rfl))
  | leaving =>
    cases hnegotiate
    exact h.carry rfl rfl (fun hpending => hpending) (fun _ => rfl)
      fun hbefore => absurd hbefore (hnot (.inr rfl))

/-- A request that is taken up in time has an offer ahead until one is started. -/
theorem offerAhead_step {records : List Record} (hqueue : QueueInv s)
    (h : Owed records → s.OfferAhead) (hstep : s.step a = some s') (htaken : s.TakenUp a)
    (howed : Owed (records ++ record s a)) : s'.OfferAhead := by
  unfold State.step at hstep
  cases a with
  | publisherNegotiationNeeded =>
    simp only [some.injEq] at hstep
    subst hstep
    unfold publisherNegotiationNeeded
    split_ifs with hfast hwaiting
    · exact .inl (Nat.succ_pos _)
    · exact .inr (.inl (Nat.succ_pos _))
    · exact debounceNegotiation_offerAhead (htaken.resolve_left hfast)
  | markForRetry =>
    obtain ⟨-, rfl⟩ := of_guard hstep
    exact offerAhead_of_pendingRetry rfl
  | queueNegotiation =>
    obtain ⟨-, rfl⟩ := of_guard hstep
    have hinv : QueueInv { s with queueing := s.queueing - 1 } := hqueue.congr ⟨rfl, rfl, rfl⟩
    exact (queueNegotiation_spec hinv htaken).2
  | work =>
    obtain ⟨w, hw, hwork⟩ := bind_eq_some_iff.mp hstep
    unfold record at howed
    simp only at howed
    split at howed
    · -- an offer is started: nothing is owed any more
      exact absurd howed (Since.not_concat records rfl Record.noConfusion)
    · next hready =>
      rw [List.append_nil] at howed
      exact work_offerAhead hw hwork (fun heq => hready (by rw [hw, heq])) (h howed)
  | negotiate =>
    obtain ⟨d, hd, hnegotiate⟩ := bind_eq_some_iff.mp hstep
    unfold record at howed
    simp only at howed
    split at howed
    · -- the debounce task starts an offer
      exact absurd howed (Since.not_concat records rfl Record.noConfusion)
    · next hfired =>
      rw [List.append_nil] at howed
      exact negotiate_offerAhead hd hnegotiate (fun heq => hfired (by rw [hd, heq])) (h howed)
  | notified =>
    have hahead := h (by simpa [record] using howed)
    obtain ⟨hsel, rfl⟩ := of_guard hstep
    exact hahead.carry rfl rfl (fun hpending => hpending) (by simp [hsel.1])
      fun _ => rfl
  | timeout =>
    have hahead := h (by simpa [record] using howed)
    simp only at hstep
    split at hstep
    · next hsel =>
      cases hstep
      exact hahead.carry rfl rfl (fun hpending => hpending) (by simp [hsel])
        fun _ => rfl
    · cases hstep
  | receiveCall | wake =>
    simp only at hstep
    split at hstep
    · cases hstep
      exact offerAhead_of_debouncer (by simp) ⟨by simp, by simp⟩
    · cases hstep
  | answerReceived =>
    have hahead := h (by simpa [record] using howed)
    simp only at hstep
    split at hstep
    · cases hstep
      exact hahead
    · cases hstep
  | answerApplied ok =>
    have hahead := h (by simpa [record] using howed)
    obtain ⟨-, rfl⟩ := of_guard hstep
    exact hahead
  | handleAnswer =>
    have hahead := h (by simpa [record] using howed)
    obtain ⟨handler, -, hhandle⟩ := bind_eq_some_iff.mp hstep
    unfold State.handleAnswer at hhandle
    split at hhandle
    · cases hhandle
    · split at hhandle
      · cases hhandle
        exact hahead
      · cases hhandle
        exact hahead
    · cases hhandle
      exact hahead

/-! ## Runs -/

/-- In a run in which every request finds a task that takes it up, nothing is ever stranded: when
all is quiet the queue has no retry pending, and an offer was started after the last request. -/
theorem nothing_stranded {fastPublish : Bool} {run : List Action}
    (h : TransitionSystem.EachStep step (fun s a _ => s.TakenUp a) (new fastPublish) run) :
    TransitionSystem.Always step record NothingStranded (new fastPublish) run := by
  refine TransitionSystem.always_of_eachStepOn
    (I := fun records s => QueueInv s ∧ (Owed records → s.OfferAhead))
    (Q := fun _ s a _ => s.TakenUp a) ?_ ?_ ?_ ?_
  · rintro records s ⟨hqueue, howed⟩ ⟨hworker, hdebouncer, -, hmarking, hqueueing⟩
    have hnot : ¬ s.InLoop := fun hloop => hloop.1 hworker
    have hidle := hqueue.idle hnot
    refine ⟨?_, fun howes => ?_⟩
    · rw [hidle]
      exact NegotiationState.noConfusion
    · rcases howed howes with h | h | h | h | h | h
      · omega
      · omega
      · rw [hidle] at h
        cases h
      · rw [hworker] at h
        cases h
      · rw [hworker] at h
        cases h
      · exact h.1 hdebouncer
  · rintro records s a s' ⟨hqueue, howed⟩ hstep htaken
    exact ⟨hqueue.step hstep htaken, offerAhead_step hqueue howed hstep htaken⟩
  · exact ⟨QueueInv.new fastPublish, fun howes => absurd howes Since.not_nil⟩
  · exact (TransitionSystem.eachStepOn_iff_eachStep [] _ run).mpr h

/-- The second request comes while the offer for the first is waiting for its answer. -/
theorem nothing_stranded_retry :
    TransitionSystem.Always step record NothingStranded (new true)
      [.publisherNegotiationNeeded, .queueNegotiation, .work, .work, .work,
        .publisherNegotiationNeeded, .markForRetry, .answerReceived, .answerApplied true,
        .handleAnswer, .handleAnswer, .notified, .work, .work, .work, .work, .timeout, .work,
        .work, .work] := by
  apply nothing_stranded
  decide

/-- A request that comes while the task of the queue is on its way out is left in the queue, and one
that comes while a debounced offer is being created is left in the channel of a task that does not
read it. -/
theorem requests_stranded :
    ¬ TransitionSystem.Always step record NothingStranded (new true)
        [.publisherNegotiationNeeded, .queueNegotiation, .work, .work, .work, .answerReceived,
          .answerApplied true, .handleAnswer, .handleAnswer, .notified, .work,
          .publisherNegotiationNeeded, .queueNegotiation, .work] ∧
      ¬ TransitionSystem.Always step record NothingStranded (new false)
        [.publisherNegotiationNeeded, .wake, .negotiate, .publisherNegotiationNeeded, .negotiate,
          .negotiate] := by
  constructor
  · intro h
    have hend := h _ [] _ (List.append_nil _).symm rfl
    exact (hend ⟨rfl, rfl, rfl, rfl, rfl⟩).1 rfl
  · intro h
    have hend := h _ [] _ (List.append_nil _).symm rfl
    apply (hend ⟨rfl, rfl, rfl, rfl, rfl⟩).2
    show Owed ([Record.requested, .offerStarted] ++ [.requested])
    exact Since.concat_self _ rfl

end State

end LiveKit.RtcSession.Negotiation
