import LiveKit.Lib.RingBuffer
import LiveKit.Lib.Since
import LiveKit.Lib.TransitionSystem
import Mathlib.Algebra.Order.Ring.Nat

/-!
# The queues of native frames

`AudioFrameQueue` of `native/audio_stream.rs` and `VideoFrameQueue` of `native/video_stream.rs`,
which differ in the type of the frames. Each access under a lock and each access of an atomic is a
step; one thread pushes, one task receives, and the stream can be closed more than once.
-/

namespace LiveKit.FrameQueue

open TransitionSystem

/-! ## The two kinds of queue -/

section Kind

variable {F : Type} (ring : ∀ capacity, RingBuffer F capacity)

inductive Kind where
  | bounded (capacity : ℕ) (buffer : (ring capacity).Buffer)
  | unbounded (frames : List F)

variable {ring}

/-- A capacity of zero is none. -/
def Kind.new (capacity : Option ℕ) : Kind ring :=
  match capacity.filter fun capacity => 0 < capacity with
  | some capacity => .bounded capacity (ring capacity).new
  | none => .unbounded []

/-- There is none if the buffer is full. -/
def Kind.push : Kind ring → F → Option (Kind ring)
  | .bounded capacity buffer, frame => ((ring capacity).push buffer frame).map (.bounded capacity)
  | .unbounded frames, frame => some (.unbounded (frames ++ [frame]))

/-- `try_pop` -/
def Kind.tryPop : Kind ring → Option (F × Kind ring)
  | .bounded capacity buffer =>
    ((ring capacity).pop buffer).map fun popped => (popped.1, .bounded capacity popped.2)
  | .unbounded [] => none
  | .unbounded (frame :: frames) => some (frame, .unbounded frames)

def Kind.clear : Kind ring → Kind ring × List F
  | .bounded capacity buffer =>
    (.bounded capacity ((ring capacity).clear buffer).1, ((ring capacity).clear buffer).2)
  | .unbounded frames => (.unbounded [], frames)

def Kind.contents : Kind ring → List F
  | .bounded capacity buffer => (ring capacity).contents buffer
  | .unbounded frames => frames

end Kind

/-! ## The steps -/

/-- Where `push` is. -/
inductive Producer (F : Type) where
  | idle
  /-- Not closed; pushes the frame. -/
  | pushing (frame : F)
  /-- The buffer was full; pops. -/
  | full (frame : F)
  /-- Has popped; counts it with `record_drop`. -/
  | dropping (frame : F)
  /-- Before `wake_receiver`. -/
  | waking

/-- Where `poll_recv` is. -/
inductive Receiver (F : Type) where
  /-- It has returned `Ready`, or was not called. -/
  | idle
  /-- It has returned `Pending`. -/
  | pending
  /-- Has popped nothing; asks whether the queue is closed. -/
  | checking
  /-- Stores the waker. -/
  | registering
  /-- Pops once more. -/
  | retrying
  /-- Has popped this frame now; takes the waker away. -/
  | unregistering (frame : F)
  /-- Asks again whether the queue is closed. -/
  | rechecking

/-- Where `close` is. -/
inductive Closer where
  | idle
  /-- Before `wake_receiver`. -/
  | waking
  | clearing

structure State {F : Type} (ring : ∀ capacity, RingBuffer F capacity) where
  kind : Kind ring
  closed : Bool
  droppedFrames : ℕ
  /-- There is a waker. -/
  waker : Bool
  producer : Producer F
  receiver : Receiver F
  closer : Closer

inductive Event (F : Type) where
  /-- A `push` begins; the queue is not closed. -/
  | accepted (frame : F)
  /-- A `push` begins and is over; the queue is closed. -/
  | refused (frame : F)
  /-- A `push` is over. -/
  | pushed
  /-- A `poll_recv` begins. -/
  | polled
  | registered
  /-- `poll_recv` returns `Pending`. -/
  | pending
  /-- `poll_recv` returns a frame. -/
  | delivered (frame : F)
  /-- `poll_recv` returns that there will be no more. -/
  | ended
  | woken
  /-- A `close` is over and has cleared these. -/
  | cleared (frames : List F)

inductive Action (F : Type) where
  | push (frame : F)
  | goOnPushing
  | pollRecv
  | goOnReceiving
  | close
  | goOnClosing

namespace State

variable {F : Type} {ring : ∀ capacity, RingBuffer F capacity}

def new (ring : ∀ capacity, RingBuffer F capacity) (capacity : Option ℕ) : State ring :=
  ⟨.new capacity, false, 0, false, .idle, .idle, .idle⟩

def wakeReceiver (s : State ring) : State ring × List (Event F) :=
  ({ s with waker := false }, if s.waker then [.woken] else [])

/-- The beginning of `push`. -/
def push (s : State ring) (frame : F) : State ring × List (Event F) :=
  if s.closed then (s, [.refused frame])
  else ({ s with producer := .pushing frame }, [.accepted frame])

/-- `push` after its beginning, with `push_bounded`. -/
def goOnPushing (s : State ring) : Option (State ring × List (Event F)) :=
  match s.producer with
  | .idle => none
  | .pushing frame =>
    match s.kind.push frame with
    | some kind => some ({ s with kind, producer := .waking }, [])
    | none => some ({ s with producer := .full frame }, [])
  | .full frame =>
    match s.kind.tryPop with
    | some (_, kind) => some ({ s with kind, producer := .dropping frame }, [])
    -- the newest frame is let go
    | none => some ({ s with producer := .waking }, [])
  | .dropping frame =>
    some ({ s with
      droppedFrames := (s.droppedFrames + 1) % 2 ^ 64, producer := .pushing frame }, [])
  | .waking =>
    let (s', events) := s.wakeReceiver
    some ({ s' with producer := .idle }, events ++ [.pushed])

/-- The beginning of `poll_recv`. -/
def pollRecv (s : State ring) : State ring × List (Event F) :=
  match s.kind.tryPop with
  | some (frame, kind) => ({ s with kind, receiver := .idle }, [.polled, .delivered frame])
  | none => ({ s with receiver := .checking }, [.polled])

/-- `poll_recv` after its beginning. -/
def goOnReceiving (s : State ring) : Option (State ring × List (Event F)) :=
  match s.receiver with
  | .idle | .pending => none
  | .checking =>
    if s.closed then some ({ s with receiver := .idle }, [.ended])
    else some ({ s with receiver := .registering }, [])
  | .registering => some ({ s with waker := true, receiver := .retrying }, [.registered])
  | .retrying =>
    match s.kind.tryPop with
    | some (frame, kind) => some ({ s with kind, receiver := .unregistering frame }, [])
    | none => some ({ s with receiver := .rechecking }, [])
  | .unregistering frame =>
    some ({ s with waker := false, receiver := .idle }, [.delivered frame])
  | .rechecking =>
    if s.closed then some ({ s with receiver := .idle }, [.ended])
    else some ({ s with receiver := .pending }, [.pending])

/-- `close` after its beginning. -/
def goOnClosing (s : State ring) : Option (State ring × List (Event F)) :=
  match s.closer with
  | .idle => none
  | .waking =>
    let (s', events) := s.wakeReceiver
    some ({ s' with closer := .clearing }, events)
  | .clearing =>
    some ({ s with kind := s.kind.clear.1, closer := .idle }, [.cleared s.kind.clear.2])

/-- A step, and the events of it. -/
def turn (s : State ring) : Action F → Option (State ring × List (Event F))
  | .push frame =>
    match s.producer with
    | .idle => some (s.push frame)
    | _ => none
  | .goOnPushing => s.goOnPushing
  | .pollRecv =>
    match s.receiver with
    | .idle | .pending => some s.pollRecv
    | _ => none
  | .goOnReceiving => s.goOnReceiving
  | .close =>
    match s.closer with
    | .idle => some ({ s with closed := true, closer := .waking }, [])
    | _ => none
  | .goOnClosing => s.goOnClosing

def step (s : State ring) (a : Action F) : Option (State ring) := (s.turn a).map Prod.fst

end State

section

variable {F : Type} {ring : ∀ capacity, RingBuffer F capacity}

def record (s : State ring) (a : Action F) : List (Event F) := (s.turn a).elim [] Prod.snd

/-! ## What is promised -/

namespace Event

def accepts : Event F → Option F
  | .accepted frame => some frame
  | _ => none

def delivers : Event F → Option F
  | .delivered frame => some frame
  | _ => none

def clears : Event F → List F
  | .cleared frames => frames
  | _ => []

def IsPolled : Event F → Prop
  | .polled => True
  | _ => False

def IsPending : Event F → Prop
  | .pending => True
  | _ => False

def IsRegistered : Event F → Prop
  | .registered => True
  | _ => False

/-- From here on a waker that was stored before is not waited for. -/
def IsServed : Event F → Prop
  | .polled => True
  | .woken => True
  | _ => False

def IsDelivered (e : Event F) : Prop := e.delivers.isSome

def IsCleared : Event F → Prop
  | .cleared _ => True
  | _ => False

/-- A `push` or a `close` is over. -/
def IsCompletion : Event F → Prop
  | .refused _ => True
  | .pushed => True
  | .cleared _ => True
  | _ => False

end Event

/-- The receiver has a waker that was not woken. -/
def Unwoken (h : List (Event F)) : Prop := Since Event.IsRegistered Event.IsServed h

/-- Since the receiver waits, a `push` or a `close` came to its end. -/
def Passed (h : List (Event F)) : Prop :=
  ∃ before after, h = before ++ .pending :: after ∧ (∀ e ∈ after, ¬ e.IsPolled) ∧
    ∃ e ∈ after, e.IsCompletion

/-- No operation is in progress. -/
def State.Quiet (s : State ring) : Prop :=
  s.producer = .idle ∧ s.closer = .idle ∧ (s.receiver = .idle ∨ s.receiver = .pending)

structure Accounted (h : List (Event F)) (s : State ring) : Prop where
  inOrder : (h.filterMap Event.delivers).Sublist (h.filterMap Event.accepts)
  balance : s.Quiet → (h.filterMap Event.accepts).length =
    (h.filterMap Event.delivers).length + s.droppedFrames + s.kind.contents.length +
      (h.flatMap Event.clears).length
  wakes : ¬ (Unwoken h ∧ Passed h)
  silent : NoneAfter Event.IsDelivered Event.IsCleared h

/-- No step of the four kinds that go wrong, and no drop that the counter cannot count. -/
def Regular (h : List (Event F)) (s : State ring) : Action F → Prop
  -- none is refused before `close` has woken the receiver that waits
  | .push _ => s.closed = true → s.receiver = .pending → s.waker = false
  | .goOnPushing =>
    match s.producer with
    -- none comes after `close` is over
    | .pushing _ => ∀ e ∈ h, ¬ e.IsCleared
    -- nobody has emptied the buffer that was full
    | .full _ => s.kind.contents ≠ []
    | .dropping _ => s.droppedFrames + 1 < 2 ^ 64
    | _ => True
  | .goOnClosing =>
    match s.closer, s.receiver with
    -- nothing is on its way out of `poll_recv`
    | .clearing, .unregistering _ => False
    | _, _ => True
  | _ => True

end

end LiveKit.FrameQueue
