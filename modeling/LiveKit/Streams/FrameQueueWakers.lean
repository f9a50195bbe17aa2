import LiveKit.Streams.FrameQueueTheorems

/-!
# Who is woken, and whole runs of a queue

A receiver that waits has stored its waker, and whoever ends a push or a close takes it; only a push
that is refused does not look for it.
-/

namespace LiveKit.FrameQueue

open List TransitionSystem

variable {F : Type} {ring : ∀ capacity, RingBuffer F capacity} {s s' : State ring}
  {h events : List (Event F)} {a : Action F}

/-! ## The receiver that waits -/

/-- The receiver has returned `Pending` and was not called again. -/
def Waiting (h : List (Event F)) : Prop := Since Event.IsPending Event.IsPolled h

theorem Passed.concat {e : Event F} (hpassed : Passed (h ++ [e])) :
    Passed h ∨ Waiting h ∧ e.IsCompletion := by
  obtain ⟨before, after, hsplit, hpolled, c, hc, hcompletion⟩ := hpassed
  rcases eq_nil_or_concat' after with rfl | ⟨after', last, rfl⟩
  · cases hc
  · rw [← cons_append, ← append_assoc] at hsplit
    obtain ⟨hh, hlast⟩ := append_inj' hsplit rfl
    have hpolled' : ∀ e ∈ after', ¬ e.IsPolled := fun e he => hpolled e (mem_append_left _ he)
    rw [mem_append, mem_singleton] at hc
    cases hc with
    | inl hbefore => exact .inl ⟨before, after', hh, hpolled', c, hbefore, hcompletion⟩
    | inr hnow =>
      rw [singleton_inj.mp hlast, ← hnow]
      exact .inr ⟨⟨before, .pending, after', hh, trivial, hpolled'⟩, hcompletion⟩

theorem Passed.waiting (hpassed : Passed h) : Waiting h := by
  obtain ⟨before, after, hh, hpolled, -⟩ := hpassed
  exact ⟨before, .pending, after, hh, trivial, hpolled⟩

theorem not_passed_concat {e : Event F} (hwaiting : ¬ Waiting h) : ¬ Passed (h ++ [e]) := by
  intro hpassed
  cases hpassed.concat with
  | inl hbefore => exact hwaiting hbefore.waiting
  | inr hnow => exact hwaiting hnow.1

/-- What is known of the waker. -/
structure Wakes (h : List (Event F)) (s : State ring) : Prop where
  hasWaker : Unwoken h → s.waker = true ∨ s.receiver = .idle
  waits : Waiting h → s.receiver = .pending
  closed : s.closer = .idle ∨ s.closed = true
  /-- After `close` has woken the receiver, it does not wait with a waker. -/
  closing : s.closed = true → s.closer ≠ .waking → s.receiver = .pending → s.waker = false
  wakes : ¬ (Unwoken h ∧ Passed h)

section

variable (hwakes : Wakes h s)

include hwakes

/-- A step that is not on record. -/
theorem Wakes.state
    (hwaker : s.waker = true ∨ s.receiver = .idle → s'.waker = true ∨ s'.receiver = .idle)
    (hpending : s.receiver = .pending → s'.receiver = .pending)
    (hclosed : s'.closer = .idle ∨ s'.closed = true)
    (hclosing : s'.closed = true → s'.closer ≠ .waking → s'.receiver = .pending →
      s'.waker = false) :
    Wakes h s' :=
  ⟨fun hunwoken => hwaker (hwakes.hasWaker hunwoken),
    fun hwaiting => hpending (hwakes.waits hwaiting), hclosed, hclosing, hwakes.wakes⟩

/-- A record that neither begins nor ends what the receiver waits for. -/
theorem Wakes.event {e : Event F} (hregistered : ¬ e.IsRegistered) (hpending : ¬ e.IsPending)
    (hcompletion : e.IsCompletion → s.receiver = .pending → s.waker = false) :
    Wakes (h ++ [e]) s := by
  have hunwoken : Unwoken (h ++ [e]) → Unwoken h := by
    intro hnew
    refine hnew.of_append ?_
    intro e' he'
    rw [mem_singleton.mp he']
    exact hregistered
  have hwaiting : Waiting (h ++ [e]) → Waiting h := by
    intro hnew
    refine hnew.of_append ?_
    intro e' he'
    rw [mem_singleton.mp he']
    exact hpending
  refine ⟨fun hnew => hwakes.hasWaker (hunwoken hnew), fun hnew => hwakes.waits (hwaiting hnew),
    hwakes.closed, hwakes.closing, ?_⟩
  rintro ⟨hnew, hpassed⟩
  cases hpassed.concat with
  | inl hbefore => exact hwakes.wakes ⟨hunwoken hnew, hbefore⟩
  | inr hnow =>
    have hreceiver := hwakes.waits hnow.1
    have hwaker := hcompletion hnow.2 hreceiver
    cases hwakes.hasWaker (hunwoken hnew) with
    | inl hstored =>
      rw [hwaker] at hstored
      cases hstored
    | inr hidle =>
      rw [hreceiver] at hidle
      cases hidle

theorem Wakes.not_waiting (hreceiver : s.receiver ≠ .pending) : ¬ Waiting h :=
  fun hwaiting => hreceiver (hwakes.waits hwaiting)

/-- The receiver begins anew. -/
theorem Wakes.polled (hclosed : s'.closed = s.closed) (hcloser : s'.closer = s.closer)
    (hreceiver : s'.receiver ≠ .pending) :
    Wakes (h ++ [.polled]) s' := by
  have hserved : ¬ Unwoken (h ++ [.polled]) := Since.not_concat h trivial id
  refine ⟨fun hunwoken => absurd hunwoken hserved,
    fun hwaiting => absurd hwaiting (Since.not_concat h trivial id), ?_,
    fun _ _ hpending => absurd hpending hreceiver, fun hboth => hserved hboth.1⟩
  rw [hclosed, hcloser]
  exact hwakes.closed

/-- `wake_receiver` -/
theorem Wakes.wakeReceiver (hwaker : s'.waker = false) (hreceiver : s'.receiver = s.receiver)
    (hclosed : s'.closer = .idle ∨ s'.closed = true) :
    Wakes (h ++ if s.waker then [.woken] else []) s' := by
  cases hstored : s.waker with
  | false =>
    rw [if_neg Bool.false_ne_true, append_nil]
    refine hwakes.state ?_ (fun hpending => hreceiver.trans hpending) hclosed
      (fun _ _ _ => hwaker)
    rintro (hwaker' | hidle)
    · rw [hstored] at hwaker'
      cases hwaker'
    · exact .inr (hreceiver.trans hidle)
  | true =>
    rw [if_pos rfl]
    have hserved : ¬ Unwoken (h ++ [.woken]) := Since.not_concat h trivial id
    refine ⟨fun hunwoken => absurd hunwoken hserved, ?_, hclosed, fun _ _ _ => hwaker,
      fun hboth => hserved hboth.1⟩
    intro hwaiting
    have hbefore : Waiting h := by
      refine hwaiting.of_append ?_
      intro e he
      rw [mem_singleton.mp he]
      exact id
    exact hreceiver.trans (hwakes.waits hbefore)

/-- A step between two calls of the receiver. -/
theorem Wakes.between (hwaker : s'.waker = s.waker) (hreceiver : s'.receiver = s.receiver)
    (hclosed : s'.closed = s.closed) (hcloser : s'.closer = s.closer) : Wakes h s' := by
  refine hwakes.state ?_ (fun hpending => hreceiver.trans hpending) ?_ ?_
  · rw [hwaker, hreceiver]
    exact id
  · rw [hclosed, hcloser]
    exact hwakes.closed
  · rw [hclosed, hcloser, hreceiver, hwaker]
    exact hwakes.closing

/-- A step within a call of the receiver, to a point where it does not wait. -/
theorem Wakes.within (hreceiver : s.receiver ≠ .pending)
    (hwaker : s.waker = true ∨ s.receiver = .idle → s'.waker = true ∨ s'.receiver = .idle)
    (hreceiver' : s'.receiver ≠ .pending) (hclosed : s'.closed = s.closed)
    (hcloser : s'.closer = s.closer) : Wakes h s' := by
  refine hwakes.state hwaker (fun hpending => absurd hpending hreceiver) ?_
    (fun _ _ hpending => absurd hpending hreceiver')
  rw [hclosed, hcloser]
  exact hwakes.closed

theorem Wakes.pollRecv (hturn : Turn s .pollRecv s' events) :
    Wakes (h ++ events) s' := by
  cases hturn with
  | @receives frame kind hreceiver hkind =>
    have hpolled : Wakes (h ++ [.polled]) { s with kind, receiver := .idle } :=
      hwakes.polled rfl rfl nofun
    have hdelivered := hpolled.event (e := .delivered frame) id id (fun hnot => hnot.elim)
    rw [append_assoc] at hdelivered
    exact hdelivered
  | findsEmpty hreceiver => exact hwakes.polled rfl rfl nofun

theorem Wakes.goOnReceiving (hturn : Turn s .goOnReceiving s' events) :
    Wakes (h ++ events) s' := by
  cases hturn with
  | ends hreceiver =>
    have hnot : s.receiver ≠ .pending := by
      intro hpending
      rw [hpending] at hreceiver
      cases hreceiver with
      | inl hother | inr hother => cases hother
    have hwithin : Wakes h { s with receiver := .idle } :=
      hwakes.within hnot (fun _ => .inr rfl) nofun rfl rfl
    exact hwithin.event id id (fun hcompletion => hcompletion.elim)
  | @goesOn receiver hreceiver hnext =>
    rw [append_nil]
    have hnot : s.receiver ≠ .pending ∧ s.receiver ≠ .idle := by
      cases hreceiver with
      | inl hchecking => rw [hchecking]; exact ⟨nofun, nofun⟩
      | inr hretrying => rw [hretrying]; exact ⟨nofun, nofun⟩
    have hnot' : receiver ≠ .pending := by
      cases hnext with
      | inl hregistering => rw [hregistering]; exact nofun
      | inr hrechecking => rw [hrechecking]; exact nofun
    refine hwakes.within hnot.1 ?_ hnot' rfl rfl
    rintro (hwaker | hidle)
    · exact .inl hwaker
    · exact absurd hidle hnot.2
  | registers hreceiver =>
    -- the waker is registered before the queue is looked at again
    have hwaiting : ¬ Waiting h := by
      refine hwakes.not_waiting ?_
      rw [hreceiver]
      exact nofun
    refine ⟨fun _ => .inl rfl, ?_, hwakes.closed, nofun, ?_⟩
    · intro hnew
      refine absurd (hnew.of_append ?_) hwaiting
      intro e he
      rw [mem_singleton.mp he]
      exact id
    · rintro ⟨-, hpassed⟩
      exact not_passed_concat hwaiting hpassed
  | @receivesLate frame kind hreceiver hkind =>
    rw [append_nil]
    refine hwakes.within ?_ ?_ nofun rfl rfl
    · rw [hreceiver]
      exact nofun
    · rintro (hwaker | hidle)
      · exact .inl hwaker
      · rw [hreceiver] at hidle
        cases hidle
  | @returns frame hreceiver =>
    have hwithin : Wakes h { s with waker := false, receiver := .idle } := by
      refine hwakes.within ?_ (fun _ => .inr rfl) nofun rfl rfl
      rw [hreceiver]
      exact nofun
    exact hwithin.event id id (fun hcompletion => hcompletion.elim)
  | pends hreceiver hopen =>
    have hwaiting : ¬ Waiting h := by
      refine hwakes.not_waiting ?_
      rw [hreceiver]
      exact nofun
    refine ⟨?_, fun _ => rfl, hwakes.closed, ?_, ?_⟩
    · intro hnew
      -- the waker was registered in this poll, so a later push finds it
      have hbefore : Unwoken h := by
        refine hnew.of_append ?_
        intro e he
        rw [mem_singleton.mp he]
        exact id
      cases hwakes.hasWaker hbefore with
      | inl hwaker => exact .inl hwaker
      | inr hidle =>
        rw [hreceiver] at hidle
        cases hidle
    · intro hclosed
      have hclosed' : s.closed = true := hclosed
      rw [hopen] at hclosed'
      cases hclosed'
    · rintro ⟨-, hpassed⟩
      exact not_passed_concat hwaiting hpassed

theorem Wakes.step (hturn : Turn s a s' events) (hregular : Regular h s a) :
    Wakes (h ++ events) s' := by
  cases a with
  | push frame =>
    cases hturn with
    | refuses _ hclosed => exact hwakes.event id id (fun _ => hregular hclosed)
    | accepts _ hproducer =>
      have hbetween : Wakes h { s with producer := .pushing frame } :=
        hwakes.between rfl rfl rfl rfl
      exact hbetween.event id id (fun hcompletion => hcompletion.elim)
  | goOnPushing =>
    cases hturn with
    | pushes | findsFull | pops | letsGo | counts =>
      rw [append_nil]
      exact hwakes.between rfl rfl rfl rfl
    | wakes hproducer =>
      have hwoken : Wakes (h ++ if s.waker then [.woken] else [])
          { s with waker := false, producer := .idle } :=
        hwakes.wakeReceiver rfl rfl hwakes.closed
      have hpushed := hwoken.event (e := .pushed) id id (fun _ _ => rfl)
      rw [append_assoc] at hpushed
      exact hpushed
  | pollRecv => exact hwakes.pollRecv hturn
  | goOnReceiving => exact hwakes.goOnReceiving hturn
  | close =>
    cases hturn
    rw [append_nil]
    exact hwakes.state id id (.inr rfl) (fun _ hnot => absurd rfl hnot)
  | goOnClosing =>
    cases hturn with
    | wakesClosed hcloser =>
      refine hwakes.wakeReceiver rfl rfl (.inr ?_)
      cases hwakes.closed with
      | inl hidle =>
        rw [hcloser] at hidle
        cases hidle
      | inr hclosed => exact hclosed
    | @clears kind hcloser hkind =>
      have hclosed : s.closed = true := by
        cases hwakes.closed with
        | inl hidle =>
          rw [hcloser] at hidle
          cases hidle
        | inr hclosed => exact hclosed
      have hclosing : s.receiver = .pending → s.waker = false := by
        refine hwakes.closing hclosed ?_
        rw [hcloser]
        exact nofun
      have hover : Wakes h { s with kind, closer := .idle } :=
        hwakes.state id id (.inl rfl) (fun _ _ => hclosing)
      exact hover.event id id (fun _ => hclosing)

end

theorem Wakes.new (ring : ∀ capacity, RingBuffer F capacity) (capacity : Option ℕ) :
    Wakes [] (State.new ring capacity) :=
  ⟨fun hunwoken => absurd hunwoken Since.not_nil, fun hwaiting => absurd hwaiting Since.not_nil,
    .inl rfl, nofun, fun hboth => Since.not_nil hboth.1⟩

/-! ## Whole runs -/

theorem accounted (hframes : Frames h s) (hwakes : Wakes h s) : Accounted h s := by
  obtain ⟨gone, hcame, hsub, hlength⟩ := hframes.moved
  refine ⟨?_, ?_, hwakes.wakes, hframes.silent⟩
  · rw [hcame, append_assoc]
    have hreceived := (sublist_append_left (h.filterMap Event.delivers) s.receiver.held).trans hsub
    exact hreceived.trans (sublist_append_left gone _)
  · rintro ⟨hproducer, -, hreceiver⟩
    rw [hproducer, length_append, held_of_idle hreceiver] at hlength
    rw [hcame, hproducer, length_append, length_append, hlength]
    show _ + ([] : List F).length + (s.droppedFrames + 0 + _) + _ + ([] : List F).length = _
    rw [length_nil]
    omega

/-- As long as none of the steps goes wrong, the queue accounts for every frame. -/
theorem accounted_of_regular (ring : ∀ capacity, RingBuffer F capacity) (capacity : Option ℕ)
    (run : List (Action F))
    (hregular : EachStepOn State.step record (fun h s a _ => Regular h s a) [] (.new ring capacity)
      run) :
    Always State.step record Accounted (.new ring capacity) run := by
  refine always_of_eachStepOn (I := fun h s => Frames h s ∧ Wakes h s) ?_ ?_
    ⟨Frames.new ring capacity, Wakes.new ring capacity⟩ hregular
  · rintro h s ⟨hframes, hwakes⟩
    exact accounted hframes hwakes
  · rintro h s a s' ⟨hframes, hwakes⟩ hstep hregular
    have hturn := step_turn hstep
    exact ⟨hframes.step hturn hregular, hwakes.step hturn hregular⟩

/-- The oldest frame is dropped, and counted. -/
theorem accounted_of_drop :
    Always State.step record Accounted (.new (RingBuffer.ofList ℕ) (some 1))
      [.push 1, .goOnPushing, .goOnPushing, .push 2, .goOnPushing, .goOnPushing, .goOnPushing,
        .goOnPushing, .goOnPushing, .pollRecv] := by
  refine accounted_of_regular (RingBuffer.ofList ℕ) (some 1) _ ?_
  -- the first frame
  rintro _ ⟨⟩
  refine ⟨nofun, ?_⟩
  rintro _ ⟨⟩
  refine ⟨?_, ?_⟩
  · show ∀ e ∈ [Event.accepted 1], ¬ e.IsCleared
    simp [Event.IsCleared]
  rintro _ ⟨⟩
  refine ⟨trivial, ?_⟩
  -- the second one finds the buffer full
  rintro _ ⟨⟩
  refine ⟨nofun, ?_⟩
  rintro _ ⟨⟩
  refine ⟨?_, ?_⟩
  · show ∀ e ∈ [Event.accepted 1, .pushed, .accepted 2], ¬ e.IsCleared
    simp [Event.IsCleared]
  rintro _ ⟨⟩
  refine ⟨cons_ne_nil 1 [], ?_⟩
  rintro _ ⟨⟩
  refine ⟨(by decide : 0 + 1 < 2 ^ 64), ?_⟩
  rintro _ ⟨⟩
  refine ⟨?_, ?_⟩
  · show ∀ e ∈ [Event.accepted 1, .pushed, .accepted 2], ¬ e.IsCleared
    simp [Event.IsCleared]
  rintro _ ⟨⟩
  refine ⟨trivial, ?_⟩
  rintro _ ⟨⟩
  exact ⟨trivial, trivial⟩

/-- The receiver takes the only frame between the push that finds the buffer full and the pop after
it; so the new frame is let go. -/
theorem newest_frame_let_go :
    ¬ Always State.step record Accounted (.new (RingBuffer.ofList ℕ) (some 1))
      [.push 1, .goOnPushing, .goOnPushing, .push 2, .goOnPushing, .pollRecv, .goOnPushing,
        .goOnPushing] := by
  intro halways
  have hbalance := (halways _ [] _ (append_nil _).symm rfl).balance ⟨rfl, rfl, .inl rfl⟩
  exact absurd hbalance (by decide)

end LiveKit.FrameQueue
