import LiveKit.Lib.Chunks
import LiveKit.Lib.TransitionSystem
import Mathlib.Algebra.Order.Ring.Nat

/-!
# The buffer of an audio source

`NativeAudioSource` of `native/audio_source.rs` cuts a frame into chunks of its queue size and waits
for the callback of each. `InternalSource` of `audio_track.cpp` has a queue size of its own, by
which it admits the chunks, and a task that gives ten milliseconds at a time to the sinks.
-/

namespace LiveKit.AudioSource

open TransitionSystem

/-! ## The constructors -/

/-- The largest `i32` and `int`. -/
def maxInt : ℕ := 2 ^ 31 - 1

/-- What is fixed for a source on the side of Rust. -/
structure NativeAudioSource where
  sampleRate : ℕ
  numChannels : ℕ
  queueSizeSamples : ℕ

/-- A product of two `u32`; whether overflow panics depends on the build. -/
def mulU32 (overflowChecks : Bool) (a b : ℕ) : Option ℕ :=
  if a * b < 2 ^ 32 then some (a * b)
  else if overflowChecks then none
  else some (a * b % 2 ^ 32)

/-- `NativeAudioSource::new`; there is none where an assertion, an `unwrap` or a product panics. -/
def NativeAudioSource.new (overflowChecks : Bool) (sampleRate numChannels queueSizeMs : ℕ) :
    Option NativeAudioSource := do
  guard (queueSizeMs % 10 = 0)
  guard (sampleRate ≤ maxInt ∧ numChannels ≤ maxInt ∧ queueSizeMs ≤ maxInt)
  let perSecond ← mulU32 overflowChecks queueSizeMs sampleRate
  let samples ← mulU32 overflowChecks perSecond numChannels
  return ⟨sampleRate, numChannels, samples / 1000⟩

/-- What is fixed for a source on the side of C++. -/
structure InternalSource where
  samples10ms : ℕ
  queueSizeSamples : ℕ
  notifyThresholdSamples : ℕ

/-- The constructor of `InternalSource`; where an `int` overflows, what it does is not defined. -/
def InternalSource.new (sampleRate numChannels queueSizeMs : ℕ) : Option InternalSource := do
  if queueSizeMs = 0 then return ⟨0, 0, 0⟩
  let samples10ms := sampleRate / 100 * numChannels
  guard (samples10ms ≤ maxInt)
  let queueSizeSamples := queueSizeMs / 10 * samples10ms
  guard (queueSizeSamples + queueSizeSamples ≤ maxInt)
  return ⟨samples10ms, queueSizeSamples, queueSizeSamples⟩

/-! ## Capturing -/

/-- Where the call of `capture_frame` is. -/
inductive Call where
  | idle
  /-- Before the next of the chunks. -/
  | sending (chunks : List (List Int16))
  /-- Waits for a callback. -/
  | awaiting (ctx : ℕ) (chunks : List (List Int16))

/-- The samples that have not been given to the other side. -/
def Call.rest : Call → List Int16
  | .idle => []
  | .sending chunks => chunks.flatten
  | .awaiting _ chunks => chunks.flatten

structure State where
  native : NativeAudioSource
  internal : InternalSource
  buffer : List Int16
  /-- The callback that will be invoked, with its context; the one of the fast path has none. -/
  onComplete : Option (Option ℕ)
  call : Call
  /-- The contexts that have been made. -/
  contexts : ℕ

inductive Event where
  /-- A frame is captured. -/
  | frame (data : List Int16)
  /-- The call returns an error. -/
  | failed
  | completed (ctx : ℕ)
  /-- Ten milliseconds from the buffer are given to the sinks. -/
  | block (data : List Int16)
  /-- Silence is given to the sinks while so much is in the buffer. -/
  | silence (buffered : ℕ)
  /-- Samples are given to the sinks without the buffer. -/
  | direct (data : List Int16)

inductive Action where
  /-- `capture_frame` is called, with the rate and the channels of the source. -/
  | captureFrame (data : List Int16)
  /-- The loop over the chunks goes on. -/
  | captureChunk
  /-- The task of the buffer runs. -/
  | drain

namespace State

def new (native : NativeAudioSource) (internal : InternalSource) : State :=
  ⟨native, internal, [], none, .idle, 0⟩

/-- `capture_frame` of `InternalSource`; there is none where it returns `false`. -/
def capture (s : State) (data : List Int16) (ctx : Option ℕ) : Option (State × List Event) :=
  let queue := s.internal.queueSizeSamples
  let threshold := s.internal.notifyThresholdSamples
  if queue = 0 then some (s, [.direct data])
  -- a difference below zero is taken for a large number
  else if s.buffer.length ≤ queue + threshold ∧ queue + threshold - s.buffer.length < data.length
    then none
  else if s.onComplete.isSome then none
  else
    let s' := { s with buffer := s.buffer ++ data }
    if s'.buffer.length ≤ threshold then some (s', (ctx.map .completed).toList)
    else some ({ s' with onComplete := some ctx }, [])

/-- The end of a call with an error. -/
def fails (s : State) : State × List Event := ({ s with call := .idle }, [.failed])

/-- `capture_frame` of `NativeAudioSource`, up to the loop over the chunks. -/
def captureFrame (s : State) (data : List Int16) : State × List Event :=
  if s.native.queueSizeSamples = 0 then
    if data.length % s.native.numChannels ≠ 0 then s.fails
    else if data.length / s.native.numChannels ≠ s.native.sampleRate / 100 then s.fails
    else (s.capture data none).getD s.fails
  else ({ s with call := .sending (Chunks.chunks s.native.queueSizeSamples data) }, [])

/-- The next chunk is given to `InternalSource`; after the last one the call returns. -/
def captureChunk (s : State) : Option (State × List Event) :=
  match s.call with
  | .sending [] => some ({ s with call := .idle }, [])
  | .sending (chunk :: chunks) =>
    some <|
      match { s with contexts := s.contexts + 1 }.capture chunk (some s.contexts) with
      | none => { s with contexts := s.contexts + 1 }.fails
      | some (s', events) =>
        -- the callback may have been invoked at once
        if (events.any fun event => event matches .completed _) then
          ({ s' with call := .sending chunks }, events)
        else ({ s' with call := .awaiting s.contexts chunks }, events)
  | _ => none

/-- The call that waits for the context goes on. -/
def wake (s : State) (ctx : Option ℕ) : State :=
  match s.call, ctx with
  | .awaiting ctx' chunks, some ctx =>
    if ctx' = ctx then { s with call := .sending chunks } else s
  | _, _ => s

/-- The task gives ten milliseconds to the sinks, from the buffer or of silence. -/
def emit (s : State) : State × List Event :=
  let samples10ms := s.internal.samples10ms
  if samples10ms ≤ s.buffer.length then
    ({ s with buffer := s.buffer.drop samples10ms }, [.block (s.buffer.take samples10ms)])
  else (s, [.silence s.buffer.length])

/-- The task invokes the callback when there is room again. -/
def notify (s : State) : State × List Event :=
  match s.onComplete with
  | some ctx =>
    if s.buffer.length ≤ s.internal.notifyThresholdSamples then
      ({ s with onComplete := none }.wake ctx, (ctx.map .completed).toList)
    else (s, [])
  | none => (s, [])

/-- The task of the buffer. -/
def drain (s : State) : State × List Event :=
  let (s', events) := s.emit
  let (s'', events') := s'.notify
  (s'', events ++ events')

/-- A step, and the events of it. -/
def turn (s : State) : Action → Option (State × List Event)
  | .captureFrame data =>
    match s.call with
    | .idle =>
      let (s', events) := s.captureFrame data
      some (s', .frame data :: events)
    | _ => none
  | .captureChunk => s.captureChunk
  | .drain => some s.drain

def step (s : State) (a : Action) : Option State := (s.turn a).map Prod.fst

end State

def record (s : State) (a : Action) : List Event := (s.turn a).elim [] Prod.snd

/-! ## What is promised -/

def Event.captured : Event → List Int16
  | .frame data => data
  | _ => []

/-- The samples that the sinks get, silence apart. -/
def Event.played : Event → List Int16
  | .block data => data
  | .direct data => data
  | _ => []

def Event.context : Event → Option ℕ
  | .completed ctx => some ctx
  | _ => none

/-- Nothing is lost of what was captured, and no call is lost. -/
structure Kept (h : List Event) (s : State) : Prop where
  noneFails : .failed ∉ h
  /-- The contexts complete in order, each once; the last may still have to wait. -/
  once : h.filterMap Event.context ++ (s.onComplete.bind id).toList = List.range s.contexts
  /-- Runs of the task complete the one that waits. -/
  completes : ∃ n t, exec State.step s (List.replicate n .drain) = some t ∧ t.onComplete = none
  bounded : s.buffer.length ≤ 2 * s.internal.queueSizeSamples
  blocks : ∀ data, .block data ∈ h → data.length = s.internal.samples10ms
  silence : ∀ buffered, .silence buffered ∈ h → buffered < s.internal.samples10ms
  exact : h.flatMap Event.played ++ s.buffer ++ s.call.rest = h.flatMap Event.captured

/-- The promise, for all frames of whole samples and all schedules. -/
def Lossless (native : NativeAudioSource) (queueSizeMs : ℕ) : Prop :=
  ∃ internal, InternalSource.new native.sampleRate native.numChannels queueSizeMs = some internal ∧
    ∀ run, (∀ data, .captureFrame data ∈ run → native.numChannels ∣ data.length) →
      Always State.step record Kept (.new native internal) run

/-- The queue size of the one side is at least one sample and at most that of the other side, the
double of which is an `int`. -/
def Agree (sampleRate numChannels queueSizeMs : ℕ) : Prop :=
  0 < queueSizeMs * sampleRate * numChannels % 2 ^ 32 / 1000 ∧
    queueSizeMs * sampleRate * numChannels % 2 ^ 32 / 1000 ≤
      queueSizeMs / 10 * (sampleRate / 100 * numChannels) ∧
    2 * (queueSizeMs / 10 * (sampleRate / 100 * numChannels)) ≤ maxInt

instance (sampleRate numChannels queueSizeMs : ℕ) :
    Decidable (Agree sampleRate numChannels queueSizeMs) := by
  unfold Agree
  infer_instance

end LiveKit.AudioSource
