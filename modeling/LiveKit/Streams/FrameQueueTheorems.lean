import LiveKit.Streams.FrameQueue

/-!
# Where the frames of a queue go

A frame that was accepted is with the producer, in the queue, with the receiver, or has gone. Frames
go in the order in which they came, and what has gone was delivered, dropped or cleared, as long as
the producer finds the buffer full that it has found full before.
-/

namespace LiveKit.FrameQueue

open Event List TransitionSystem

variable {F : Type} {ring : ∀ capacity, RingBuffer F capacity} {s s' : State ring}
  {h events : List (Event F)} {a : Action F}

/-! ## The queue as a list -/

/-- A queue is empty at first. -/
theorem contents_new (capacity : Option ℕ) : (Kind.new capacity : Kind ring).contents = [] := by
  unfold Kind.new
  split
  · exact (ring _).contents_new
  · rfl

variable {frame : F} {kind : Kind ring}

/-- A frame that finds a place comes last. -/
theorem contents_push {kind' : Kind ring} (hpush : kind.push frame = some kind') :
    kind'.contents = kind.contents ++ [frame] := by
  cases kind with
  | bounded capacity buffer =>
    obtain ⟨buffer', hbuffer, rfl⟩ := Option.map_eq_some_iff.mp hpush
    exact (ring capacity).contents_push hbuffer
  | unbounded frames =>
    cases hpush
    rfl

/-- The first frame is popped. -/
theorem contents_tryPop {kind' : Kind ring} (hpop : kind.tryPop = some (frame, kind')) :
    kind.contents = frame :: kind'.contents := by
  cases kind with
  | bounded capacity buffer =>
    obtain ⟨popped, hbuffer, hpair⟩ := Option.map_eq_some_iff.mp hpop
    cases hpair
    exact (ring capacity).contents_pop hbuffer
  | unbounded frames =>
    cases frames with
    | nil => cases hpop
    | cons oldest frames =>
      cases hpop
      rfl

/-- Nothing is popped from an empty queue only. -/
theorem tryPop_eq_none (hpop : kind.tryPop = none) : kind.contents = [] := by
  cases kind with
  | bounded capacity buffer => exact (ring capacity).pop_eq_none.mp (Option.map_eq_none_iff.mp hpop)
  | unbounded frames =>
    cases frames with
    | nil => rfl
    | cons oldest frames => cases hpop

/-- A cleared queue is empty. -/
theorem contents_clear (kind : Kind ring) : kind.clear.1.contents = [] := by
  cases kind with
  | bounded capacity buffer => exact (ring capacity).contents_clear buffer
  | unbounded frames => rfl

/-- `clear` returns what was in the queue. -/
theorem clear_eq (kind : Kind ring) : kind.clear.2 = kind.contents := by
  cases kind with
  | bounded capacity buffer => exact (ring capacity).clear_eq buffer
  | unbounded frames => rfl

/-! ## What a step can do -/

/-- The steps of the three parties, and what they put on record. -/
inductive Turn (s : State ring) : Action F → State ring → List (Event F) → Prop
  | refuses (frame : F) (hclosed : s.closed = true) : Turn s (.push frame) s [.refused frame]
  | accepts (frame : F) (hproducer : s.producer = .idle) :
    Turn s (.push frame) { s with producer := .pushing frame } [.accepted frame]
  | pushes {frame : F} {kind : Kind ring} (hproducer : s.producer = .pushing frame)
    (hkind : kind.contents = s.kind.contents ++ [frame]) :
    Turn s .goOnPushing { s with kind, producer := .waking } []
  | findsFull {frame : F} (hproducer : s.producer = .pushing frame) :
    Turn s .goOnPushing { s with producer := .full frame } []
  | pops {frame oldest : F} {kind : Kind ring} (hproducer : s.producer = .full frame)
    (hkind : s.kind.contents = oldest :: kind.contents) :
    Turn s .goOnPushing { s with kind, producer := .dropping frame } []
  | letsGo {frame : F} (hproducer : s.producer = .full frame) (hempty : s.kind.contents = []) :
    Turn s .goOnPushing { s with producer := .waking } []
  | counts {frame : F} (hproducer : s.producer = .dropping frame) :
    Turn s .goOnPushing
      { s with droppedFrames := (s.droppedFrames + 1) % 2 ^ 64, producer := .pushing frame } []
  | wakes (hproducer : s.producer = .waking) :
    Turn s .goOnPushing { s with waker := false, producer := .idle }
      ((if s.waker then [.woken] else []) ++ [.pushed])
  | receives {frame : F} {kind : Kind ring} (hreceiver : s.receiver = .idle ∨ s.receiver = .pending)
    (hkind : s.kind.contents = frame :: kind.contents) :
    Turn s .pollRecv { s with kind, receiver := .idle } [.polled, .delivered frame]
  | findsEmpty (hreceiver : s.receiver = .idle ∨ s.receiver = .pending) :
    Turn s .pollRecv { s with receiver := .checking } [.polled]
  | ends (hreceiver : s.receiver = .checking ∨ s.receiver = .rechecking) :
    Turn s .goOnReceiving { s with receiver := .idle } [.ended]
  | goesOn {receiver : Receiver F} (hreceiver : s.receiver = .checking ∨ s.receiver = .retrying)
    (hnext : receiver = .registering ∨ receiver = .rechecking) :
    Turn s .goOnReceiving { s with receiver } []
  | registers (hreceiver : s.receiver = .registering) :
    Turn s .goOnReceiving { s with waker := true, receiver := .retrying } [.registered]
  | receivesLate {frame : F} {kind : Kind ring} (hreceiver : s.receiver = .retrying)
    (hkind : s.kind.contents = frame :: kind.contents) :
    Turn s .goOnReceiving { s with kind, receiver := .unregistering frame } []
  | returns {frame : F} (hreceiver : s.receiver = .unregistering frame) :
    Turn s .goOnReceiving { s with waker := false, receiver := .idle } [.delivered frame]
  | pends (hreceiver : s.receiver = .rechecking) (hopen : s.closed = false) :
    Turn s .goOnReceiving { s with receiver := .pending } [.pending]
  | closes : Turn s .close { s with closed := true, closer := .waking } []
  | wakesClosed (hcloser : s.closer = .waking) :
    Turn s .goOnClosing { s with waker := false, closer := .clearing }
      (if s.waker then [.woken] else [])
  | clears {kind : Kind ring} (hcloser : s.closer = .clearing) (hkind : kind.contents = []) :
    Turn s .goOnClosing { s with kind, closer := .idle } [.cleared s.kind.contents]

/-- What `push` does before its lock is free again. -/
theorem turn_push (hturn : s.turn (.push frame) = some (s', events)) :
    Turn s (.push frame) s' events := by
  unfold State.turn at hturn
  dsimp only at hturn
  split at hturn
  next hproducer =>
    unfold State.push at hturn
    split at hturn
    next hclosed =>
      cases hturn
      exact .refuses frame hclosed
    next hopen =>
      cases hturn
      exact .accepts frame hproducer
  · cases hturn

/-- How a `push` goes on. -/
theorem turn_goOnPushing (hturn : s.goOnPushing = some (s', events)) :
    Turn s .goOnPushing s' events := by
  unfold State.goOnPushing at hturn
  cases hproducer : s.producer with
  | idle =>
    rw [hproducer] at hturn
    cases hturn
  | pushing frame =>
    rw [hproducer] at hturn
    dsimp only at hturn
    split at hturn
    next kind hpush =>
      cases hturn
      exact .pushes hproducer (contents_push hpush)
    next hfull =>
      cases hturn
      exact .findsFull hproducer
  | full frame =>
    rw [hproducer] at hturn
    dsimp only at hturn
    split at hturn
    next kind hpop =>
      cases hturn
      exact .pops hproducer (contents_tryPop hpop)
    next hempty =>
      cases hturn
      exact .letsGo hproducer (tryPop_eq_none hempty)
  | dropping frame =>
    rw [hproducer] at hturn
    cases hturn
    exact .counts hproducer
  | waking =>
    rw [hproducer] at hturn
    cases hturn
    exact .wakes hproducer

/-- What `poll_recv` does at first. -/
theorem turn_pollRecv (hturn : s.turn .pollRecv = some (s', events)) :
    Turn s .pollRecv s' events := by
  have hpolls : (s.receiver = .idle ∨ s.receiver = .pending) ∧ s.pollRecv = (s', events) := by
    unfold State.turn at hturn
    dsimp only at hturn
    split at hturn
    next hidle => exact ⟨.inl hidle, Option.some.inj hturn⟩
    next hpending => exact ⟨.inr hpending, Option.some.inj hturn⟩
    · cases hturn
  obtain ⟨hreceiver, hpoll⟩ := hpolls
  unfold State.pollRecv at hpoll
  split at hpoll
  next frame kind hpop =>
    cases hpoll
    exact .receives hreceiver (contents_tryPop hpop)
  next hempty =>
    cases hpoll
    exact .findsEmpty hreceiver

/-- How a `poll_recv` goes on. -/
theorem turn_goOnReceiving (hturn : s.goOnReceiving = some (s', events)) :
    Turn s .goOnReceiving s' events := by
  unfold State.goOnReceiving at hturn
  cases hreceiver : s.receiver with
  | idle | pending =>
    rw [hreceiver] at hturn
    cases hturn
  | checking =>
    rw [hreceiver] at hturn
    dsimp only at hturn
    split at hturn
    · cases hturn
      exact .ends (.inl hreceiver)
    · cases hturn
      exact .goesOn (.inl hreceiver) (.inl rfl)
  | registering =>
    rw [hreceiver] at hturn
    cases hturn
    exact .registers hreceiver
  | retrying =>
    rw [hreceiver] at hturn
    dsimp only at hturn
    split at hturn
    next frame kind hpop =>
      cases hturn
      exact .receivesLate hreceiver (contents_tryPop hpop)
    · cases hturn
      exact .goesOn (.inr hreceiver) (.inr rfl)
  | unregistering frame =>
    rw [hreceiver] at hturn
    cases hturn
    exact .returns hreceiver
  | rechecking =>
    rw [hreceiver] at hturn
    dsimp only at hturn
    split at hturn
    · cases hturn
      exact .ends (.inr hreceiver)
    next hopen =>
      cases hturn
      exact .pends hreceiver (eq_false_of_ne_true hopen)

/-- How `close` goes on. -/
theorem turn_goOnClosing (hturn : s.goOnClosing = some (s', events)) :
    Turn s .goOnClosing s' events := by
  unfold State.goOnClosing at hturn
  cases hcloser : s.closer with
  | idle =>
    rw [hcloser] at hturn
    cases hturn
  | waking =>
    rw [hcloser] at hturn
    cases hturn
    exact .wakesClosed hcloser
  | clearing =>
    rw [hcloser] at hturn
    cases hturn
    rw [clear_eq]
    exact .clears hcloser (contents_clear s.kind)

/-- Every step is one of the turns, and its events are those that are recorded. -/
theorem step_turn (hstep : s.step a = some s') : Turn s a s' (record s a) := by
  obtain ⟨⟨t, events⟩, hturn, rfl⟩ := Option.map_eq_some_iff.mp hstep
  have hrecord : record s a = events := by
    unfold record
    rw [hturn]
    rfl
  rw [hrecord]
  cases a with
  | push frame => exact turn_push hturn
  | goOnPushing => exact turn_goOnPushing hturn
  | pollRecv => exact turn_pollRecv hturn
  | goOnReceiving => exact turn_goOnReceiving hturn
  | close =>
    unfold State.turn at hturn
    dsimp only at hturn
    split at hturn
    · cases hturn
      exact .closes
    · cases hturn
  | goOnClosing => exact turn_goOnClosing hturn

/-! ## The frames -/

/-- The frames that the producer has. -/
def Producer.held : Producer F → List F
  | .pushing frame => [frame]
  | .full frame => [frame]
  | .dropping frame => [frame]
  | _ => []

/-- It has popped a frame that is not counted. -/
def Producer.uncounted : Producer F → ℕ
  | .dropping _ => 1
  | _ => 0

/-- The frames that the receiver has. -/
def Receiver.held : Receiver F → List F
  | .unregistering frame => [frame]
  | _ => []

/-- Frames that have come, are in the queue, are held by the producer, were received, and so many
that have gone without. -/
def Moved (came queued held received : List F) (lost : ℕ) : Prop :=
  ∃ gone, came = gone ++ queued ++ held ∧ received.Sublist gone ∧
    gone.length = received.length + lost

namespace Moved

variable {came queued held received : List F} {lost : ℕ}

/-- A frame that comes is held by the `push` at first. -/
theorem accept (hmoved : Moved came queued [] received lost) (frame : F) :
    Moved (came ++ [frame]) queued [frame] received lost := by
  obtain ⟨gone, hcame, hsub, hlength⟩ := hmoved
  rw [append_nil] at hcame
  exact ⟨gone, by rw [hcame], hsub, hlength⟩

variable {frame : F}

/-- The frame of the `push` goes to the end of the queue. -/
theorem push (hmoved : Moved came queued [frame] received lost) :
    Moved came (queued ++ [frame]) [] received lost := by
  obtain ⟨gone, hcame, hsub, hlength⟩ := hmoved
  refine ⟨gone, ?_, hsub, hlength⟩
  rw [hcame, append_nil, append_assoc]

/-- The frame that leaves goes behind all that have gone. -/
theorem leaves {gone : List F} (hcame : came = gone ++ (frame :: queued) ++ held) :
    came = (gone ++ [frame]) ++ queued ++ held := by
  rw [hcame, append_assoc gone [frame], singleton_append]

/-- The first frame in the queue is delivered. -/
theorem receive (hmoved : Moved came (frame :: queued) held received lost) :
    Moved came queued held (received ++ [frame]) lost := by
  obtain ⟨gone, hcame, hsub, hlength⟩ := hmoved
  refine ⟨gone ++ [frame], leaves hcame, hsub.append (List.Sublist.refl _), ?_⟩
  rw [length_append, length_append, hlength]
  omega

/-- The first frame in the queue is dropped for another. -/
theorem drop (hmoved : Moved came (frame :: queued) held received lost) :
    Moved came queued held received (lost + 1) := by
  obtain ⟨gone, hcame, hsub, hlength⟩ := hmoved
  refine ⟨gone ++ [frame], leaves hcame, ?_, ?_⟩
  · exact hsub.trans (sublist_append_left gone [frame])
  · rw [length_append, hlength]
    exact Nat.add_assoc _ _ _

/-- All frames in the queue are dropped when it is cleared. -/
theorem clear (hmoved : Moved came queued held received lost) :
    Moved came [] held received (lost + queued.length) := by
  obtain ⟨gone, hcame, hsub, hlength⟩ := hmoved
  refine ⟨gone ++ queued, ?_, hsub.trans (sublist_append_left gone queued), ?_⟩
  · rw [hcame, append_nil]
  · rw [length_append, hlength]
    exact Nat.add_assoc _ _ _

end Moved

/-- Where the frames are. -/
structure Frames (h : List (Event F)) (s : State ring) : Prop where
  moved : Moved (h.filterMap Event.accepts) s.kind.contents s.producer.held
    (h.filterMap Event.delivers ++ s.receiver.held)
    (s.droppedFrames + s.producer.uncounted + (h.flatMap Event.clears).length)
  emptied : (∃ e ∈ h, e.IsCleared) → s.kind.contents = [] ∧ s.receiver.held = []
  silent : NoneAfter Event.IsDelivered Event.IsCleared h

/-- Events that are not about frames. -/
def Event.IsPlain (e : Event F) : Prop :=
  e.accepts = none ∧ e.delivers = none ∧ e.clears = [] ∧ ¬ e.IsCleared

section

variable (hplain : ∀ e ∈ events, e.IsPlain)

include hplain

theorem plain_accepts :
    (h ++ events).filterMap accepts = h.filterMap accepts := by
  rw [filterMap_append, filterMap_eq_nil_iff.mpr fun e he => (hplain e he).1,
    append_nil]

theorem plain_delivers :
    (h ++ events).filterMap delivers = h.filterMap delivers := by
  rw [filterMap_append, filterMap_eq_nil_iff.mpr fun e he => (hplain e he).2.1,
    append_nil]

theorem plain_clears :
    (h ++ events).flatMap clears = h.flatMap clears := by
  rw [flatMap_append, flatMap_eq_nil_iff.mpr fun e he => (hplain e he).2.2.1,
    append_nil]

theorem plain_cleared (hcleared : ∃ e ∈ h ++ events, e.IsCleared) : ∃ e ∈ h, e.IsCleared := by
  obtain ⟨e, he, hclear⟩ := hcleared
  rw [mem_append] at he
  cases he with
  | inl hbefore => exact ⟨e, hbefore, hclear⟩
  | inr hnow => exact absurd hclear (hplain e hnow).2.2.2

/-- Events of other kinds deliver nothing after the queue was cleared. -/
theorem plain_silent (hsilent : NoneAfter Event.IsDelivered Event.IsCleared h) :
    NoneAfter Event.IsDelivered Event.IsCleared (h ++ events) := by
  refine hsilent.append ?_
  intro e he hdelivers
  unfold Event.IsDelivered at hdelivers
  rw [(hplain e he).2.1] at hdelivers
  cases hdelivers

end

/-- What a step that is not on record of the frames has to keep. -/
theorem Frames.plain (hframes : Frames h s) (hplain : ∀ e ∈ events, e.IsPlain)
    (hmoved : ∀ came received lost,
      Moved came s.kind.contents s.producer.held (received ++ s.receiver.held)
        (s.droppedFrames + s.producer.uncounted + lost) →
      Moved came s'.kind.contents s'.producer.held (received ++ s'.receiver.held)
        (s'.droppedFrames + s'.producer.uncounted + lost))
    (hemptied : (∃ e ∈ h, e.IsCleared) → s.kind.contents = [] ∧ s.receiver.held = [] →
      s'.kind.contents = [] ∧ s'.receiver.held = []) :
    Frames (h ++ events) s' := by
  refine ⟨?_, ?_, plain_silent hplain hframes.silent⟩
  · rw [plain_accepts hplain, plain_delivers hplain, plain_clears hplain]
    exact hmoved _ _ _ hframes.moved
  · intro hcleared
    have hbefore := plain_cleared hplain hcleared
    exact hemptied hbefore (hframes.emptied hbefore)

/-- A step that leaves the frames where they are. -/
theorem Frames.still (hframes : Frames h s) (hplain : ∀ e ∈ events, e.IsPlain)
    (hkind : s'.kind = s.kind) (hproducer : s'.producer.held = s.producer.held)
    (huncounted : s'.producer.uncounted = s.producer.uncounted)
    (hreceiver : s'.receiver.held = s.receiver.held)
    (hdropped : s'.droppedFrames = s.droppedFrames) : Frames (h ++ events) s' := by
  refine hframes.plain hplain ?_ ?_
  · intro came received lost hmoved
    rw [hkind, hproducer, huncounted, hreceiver, hdropped]
    exact hmoved
  · intro _ hemptied
    rw [hkind, hreceiver]
    exact hemptied

theorem plain_nil : ∀ e ∈ ([] : List (Event F)), e.IsPlain :=
  fun _ he => absurd he not_mem_nil

theorem plain_single {e : Event F} (hplain : e.IsPlain) : ∀ e' ∈ [e], e'.IsPlain := by
  intro e' he'
  rw [mem_singleton.mp he']
  exact hplain

theorem plain_woken (waker : Bool) :
    ∀ e ∈ (if waker then [.woken] else [] : List (Event F)), e.IsPlain := by
  cases waker with
  | true => exact plain_single ⟨rfl, rfl, rfl, id⟩
  | false => exact plain_nil

/-- A receiver that is not at work holds no frame. -/
theorem held_of_idle {receiver : Receiver F} (hreceiver : receiver = .idle ∨ receiver = .pending) :
    receiver.held = [] := by
  cases hreceiver with
  | inl hidle => rw [hidle]; rfl
  | inr hpending => rw [hpending]; rfl

section

variable (hframes : Frames h s)

include hframes

/-- A frame is received, and leaves the queue. -/
theorem Frames.receive (hheld : s.receiver.held = [])
    (hkind : s.kind.contents = frame :: kind.contents) :
    Moved (h.filterMap accepts) kind.contents s.producer.held
      (h.filterMap delivers ++ [frame])
      (s.droppedFrames + s.producer.uncounted + (h.flatMap clears).length) ∧
      ¬ ∃ e ∈ h, e.IsCleared := by
  have hmoved := hframes.moved
  rw [hheld, append_nil, hkind] at hmoved
  refine ⟨hmoved.receive, ?_⟩
  intro hcleared
  have hempty := (hframes.emptied hcleared).1
  rw [hkind] at hempty
  cases hempty

/-- The producer, without a `push` that comes late or finds the buffer emptied. -/
theorem Frames.goOnPushing (hturn : Turn s .goOnPushing s' events)
    (hregular : Regular h s .goOnPushing) : Frames (h ++ events) s' := by
  cases hturn with
  | @pushes frame kind hproducer hkind =>
    have hopen : ∀ e ∈ h, ¬ e.IsCleared := by
      unfold Regular at hregular
      dsimp only at hregular
      rw [hproducer] at hregular
      exact hregular
    refine hframes.plain plain_nil ?_ ?_
    · intro came received lost hmoved
      rw [hproducer] at hmoved
      show Moved came kind.contents [] _ _
      rw [hkind]
      exact hmoved.push
    · rintro ⟨e, he, hcleared⟩
      exact absurd hcleared (hopen e he)
  | findsFull hproducer =>
    exact hframes.still plain_nil rfl (by rw [hproducer]; rfl) (by rw [hproducer]; rfl) rfl rfl
  | @pops frame oldest kind hproducer hkind =>
    refine hframes.plain plain_nil ?_ ?_
    · intro came received lost hmoved
      rw [hproducer, hkind] at hmoved
      show Moved came kind.contents [frame] _ (s.droppedFrames + 1 + lost)
      rw [Nat.add_right_comm]
      exact hmoved.drop
    · intro _ hemptied
      rw [hkind] at hemptied
      cases hemptied.1
  | letsGo hproducer hempty =>
    unfold Regular at hregular
    dsimp only at hregular
    rw [hproducer] at hregular
    exact absurd hempty hregular
  | counts hproducer =>
    have hcounts : (s.droppedFrames + 1) % 2 ^ 64 = s.droppedFrames + 1 := by
      unfold Regular at hregular
      dsimp only at hregular
      rw [hproducer] at hregular
      exact Nat.mod_eq_of_lt hregular
    refine hframes.plain plain_nil ?_ ?_
    · intro came received lost hmoved
      rw [hproducer] at hmoved
      show Moved came s.kind.contents _ _ ((s.droppedFrames + 1) % 2 ^ 64 + 0 + lost)
      rw [hcounts]
      exact hmoved
    · intro _ hemptied
      exact hemptied
  | wakes hproducer =>
    refine hframes.still ?_ rfl (by rw [hproducer]; rfl) (by rw [hproducer]; rfl) rfl rfl
    intro e he
    rw [mem_append] at he
    cases he with
    | inl hwoken => exact plain_woken s.waker e hwoken
    | inr hpushed => exact plain_single ⟨rfl, rfl, rfl, id⟩ e hpushed

/-- The receiver. -/
theorem Frames.goOnReceiving (hturn : Turn s .goOnReceiving s' events) :
    Frames (h ++ events) s' := by
  cases hturn with
  | ends hreceiver =>
    refine hframes.still (plain_single ⟨rfl, rfl, rfl, id⟩) rfl rfl rfl ?_ rfl
    cases hreceiver with
    | inl hchecking => rw [hchecking]; rfl
    | inr hrechecking => rw [hrechecking]; rfl
  | goesOn hreceiver hnext =>
    refine hframes.still plain_nil rfl rfl rfl ?_ rfl
    have hbefore : s.receiver.held = [] := by
      cases hreceiver with
      | inl hchecking => rw [hchecking]; rfl
      | inr hretrying => rw [hretrying]; rfl
    rw [hbefore]
    cases hnext with
    | inl hregistering => rw [hregistering]; rfl
    | inr hrechecking => rw [hrechecking]; rfl
  | registers hreceiver | pends hreceiver =>
    exact hframes.still (plain_single ⟨rfl, rfl, rfl, id⟩) rfl rfl rfl (by rw [hreceiver]; rfl) rfl
  | @receivesLate frame kind hreceiver hkind =>
    obtain ⟨hmoved, hnot⟩ := hframes.receive (by rw [hreceiver]; rfl) hkind
    rw [append_nil]
    exact ⟨hmoved, fun hcleared => absurd hcleared hnot, hframes.silent⟩
  | @returns frame hreceiver =>
    have hnot : ∀ e ∈ h, ¬ e.IsCleared := by
      intro e he hcleared
      have hheld := (hframes.emptied ⟨e, he, hcleared⟩).2
      rw [hreceiver] at hheld
      cases hheld
    refine ⟨?_, ?_, NoneAfter.concat hnot⟩
    · have hmoved := hframes.moved
      rw [hreceiver] at hmoved
      rw [filterMap_append, filterMap_append, flatMap_append]
      show Moved (h.filterMap accepts ++ []) _ _ (h.filterMap delivers ++ [frame] ++ [])
        (s.droppedFrames + s.producer.uncounted + (h.flatMap clears ++ []).length)
      rw [append_nil, append_nil, append_nil]
      exact hmoved
    · intro hcleared
      obtain ⟨e, he, hcleared⟩ := hcleared
      rw [mem_append, mem_singleton] at he
      cases he with
      | inl hbefore => exact absurd hcleared (hnot e hbefore)
      | inr hnow =>
        rw [hnow] at hcleared
        exact hcleared.elim

/-- The frames after a `poll_recv`. -/
theorem Frames.pollRecv (hturn : Turn s .pollRecv s' events) :
    Frames (h ++ events) s' := by
  cases hturn with
  | @receives frame kind hreceiver hkind =>
    obtain ⟨hmoved, hnot⟩ := hframes.receive (held_of_idle hreceiver) hkind
    have hnone : ∀ e ∈ h ++ [.polled], ¬ e.IsCleared := by
      intro e he hcleared
      rw [mem_append, mem_singleton] at he
      cases he with
      | inl hbefore => exact hnot ⟨e, hbefore, hcleared⟩
      | inr hnow =>
        rw [hnow] at hcleared
        exact hcleared
    have hsplit : h ++ [.polled, .delivered frame] = (h ++ [.polled]) ++ [.delivered frame] := by
      rw [append_assoc]
      rfl
    refine ⟨?_, ?_, ?_⟩
    · rw [filterMap_append, filterMap_append, flatMap_append]
      show Moved (h.filterMap accepts ++ []) kind.contents _
        (h.filterMap delivers ++ [frame] ++ [])
        (s.droppedFrames + s.producer.uncounted + (h.flatMap clears ++ []).length)
      rw [append_nil, append_nil, append_nil]
      exact hmoved
    · rintro ⟨e, he, hcleared⟩
      rw [hsplit, mem_append, mem_singleton] at he
      cases he with
      | inl hbefore => exact absurd hcleared (hnone e hbefore)
      | inr hnow =>
        rw [hnow] at hcleared
        exact hcleared.elim
    · rw [hsplit]
      exact NoneAfter.concat hnone
  | findsEmpty hreceiver =>
    exact hframes.still (plain_single ⟨rfl, rfl, rfl, id⟩) rfl rfl rfl
      (held_of_idle hreceiver).symm rfl

/-- Every regular step keeps what is known of the frames. -/
theorem Frames.step (hturn : Turn s a s' events) (hregular : Regular h s a) :
    Frames (h ++ events) s' := by
  cases a with
  | push frame =>
    cases hturn with
    | refuses _ hclosed =>
      exact hframes.still (plain_single ⟨rfl, rfl, rfl, id⟩) rfl rfl rfl rfl rfl
    | accepts _ hproducer =>
      have hmoved := hframes.moved
      rw [hproducer] at hmoved
      refine ⟨?_, ?_, hframes.silent.concat_of_not ?_⟩
      · have haccept := hmoved.accept frame
        rw [filterMap_append, filterMap_append, flatMap_append]
        show Moved (h.filterMap accepts ++ [frame]) _ [frame]
          (h.filterMap delivers ++ [] ++ s.receiver.held)
          (s.droppedFrames + 0 + (h.flatMap clears ++ []).length)
        rw [append_nil, append_nil]
        exact haccept
      · rintro ⟨e, he, hcleared⟩
        rw [mem_append, mem_singleton] at he
        cases he with
        | inl hbefore => exact hframes.emptied ⟨e, hbefore, hcleared⟩
        | inr hnow =>
          rw [hnow] at hcleared
          exact hcleared.elim
      · intro hdelivered
        cases hdelivered
  | goOnPushing => exact hframes.goOnPushing hturn hregular
  | pollRecv => exact hframes.pollRecv hturn
  | goOnReceiving => exact hframes.goOnReceiving hturn
  | close =>
    cases hturn
    exact hframes.still plain_nil rfl rfl rfl rfl rfl
  | goOnClosing =>
    cases hturn with
    | wakesClosed hcloser => exact hframes.still (plain_woken s.waker) rfl rfl rfl rfl rfl
    | @clears kind hcloser hkind =>
      have hheld : s.receiver.held = [] := by
        unfold Regular at hregular
        dsimp only at hregular
        rw [hcloser] at hregular
        unfold Receiver.held
        split
        next hreceiver =>
          rw [hreceiver] at hregular
          exact hregular.elim
        · rfl
      refine ⟨?_, fun _ => ⟨hkind, hheld⟩, hframes.silent.concat_of_not ?_⟩
      · have hclear := hframes.moved.clear
        rw [← hkind, Nat.add_assoc, ← length_append] at hclear
        rw [filterMap_append, filterMap_append, flatMap_append]
        show Moved (h.filterMap accepts ++ []) kind.contents _
          (h.filterMap delivers ++ [] ++ s.receiver.held)
          (s.droppedFrames + s.producer.uncounted +
            (h.flatMap clears ++ (s.kind.contents ++ [])).length)
        rw [append_nil, append_nil, append_nil]
        exact hclear
      · intro hdelivered
        cases hdelivered

end

/-- There are no frames at first. -/
theorem Frames.new (ring : ∀ capacity, RingBuffer F capacity) (capacity : Option ℕ) :
    Frames [] (State.new ring capacity) := by
  refine ⟨⟨[], ?_, List.Sublist.refl _, rfl⟩, ?_, NoneAfter.nil⟩
  · show [] = [] ++ (Kind.new capacity : Kind ring).contents ++ []
    rw [contents_new]
    rfl
  · rintro ⟨e, he, -⟩
    cases he

end LiveKit.FrameQueue
