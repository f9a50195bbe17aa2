import LiveKit.Lib.TransitionSystem

/-!
# The stream of a data track

`FfiDataTrackStream` of `server/data_track.rs` in `livekit-ffi`, which the client reads from and
drops, and its `SubscriptionTask`, which sends one frame for a read. A permit of `notify_read` is
the demand, and dropping the handle resolves `drop_rx`, which the task looks at between two frames.
`follows_client_iff` says when the task follows the client.
-/

namespace LiveKit.DataTrackStream

open List Option TransitionSystem

/-- Where `SubscriptionTask::run` waits. -/
inductive Phase where
  /-- In `wait_for_subscription`. -/
  | subscribing
  /-- In the `select!` of `next_frame`. -/
  | selecting
  /-- In `stream.next()`, which stands in the second branch of that `select!`. -/
  | receiving
  | ended
deriving DecidableEq

/-- The `DataTrackStream` of the task. -/
structure Stream (Frame : Type) where
  frames : List Frame
  ended : Bool

/-- `DataTrackStreamEvent` -/
inductive Event (Frame Error : Type) where
  | frameReceived (frame : Frame)
  | eos (error : Option Error)

structure State (Frame Error : Type) where
  /-- The client has dropped the handle, and `drop_tx` with it. -/
  dropped : Bool
  /-- The permit of `notify_read`. -/
  permit : Bool
  eosEvent : Option (Option Error)
  phase : Phase
  stream : Option (Stream Frame)
  /-- What has been sent to the client. -/
  events : List (Event Frame Error)
  /-- The reads that were not answered with the end of the stream. -/
  reads : ℕ
  /-- The frames that have come into the stream. -/
  arrived : List Frame

inductive Action (Frame Error : Type) where
  | read
  | drop
  /-- A frame comes into the stream, and the oldest are lost if the task lags behind. -/
  | arrive (frame : Frame) (lost : ℕ)
  | endStream
  /-- `subscribe_with_options` returns. -/
  | subscribed (result : Except Error Unit)
  /-- `drop_rx` is ready in a `select!`. -/
  | noticeDrop
  /-- `notified()` is ready in the `select!`. -/
  | notified
  /-- `stream.next()` returns. -/
  | next

variable {Frame Error : Type}

def Action.isTask : Action Frame Error → Bool
  | subscribed _ | noticeDrop | notified | next => true
  | _ => false

/-- The frame that an event brings. -/
def Event.frame? : Event Frame Error → Option Frame
  | frameReceived frame => some frame
  | eos _ => none

namespace State

def new : State Frame Error where
  dropped := false
  permit := false
  eosEvent := none
  phase := .subscribing
  stream := none
  events := []
  reads := 0
  arrived := []

/-- `read`, with its answer. -/
def read (s : State Frame Error) : State Frame Error × Option (Option Error) :=
  (if s.eosEvent.isNone then { s with permit := true, reads := s.reads + 1 } else s, s.eosEvent)

def sendFrame (s : State Frame Error) (frame : Frame) : State Frame Error :=
  { s with events := s.events ++ [.frameReceived frame] }

/-- `send_eos`; the task ends after it. -/
def sendEos (s : State Frame Error) (error : Option Error) : State Frame Error :=
  { s with
    eosEvent := s.eosEvent.or (some error)
    events := s.events ++ [.eos error]
    phase := .ended
    stream := none }

def step (s : State Frame Error) : Action Frame Error → Option (State Frame Error)
  | .read => if s.dropped then none else some s.read.1
  | .drop => if s.dropped then none else some { s with dropped := true }
  | .arrive frame lost =>
    match s.stream with
    | some ⟨frames, false⟩ =>
      if lost ≤ frames.length then some { s with
        stream := some ⟨frames.drop lost ++ [frame], false⟩, arrived := s.arrived ++ [frame] }
      else none
    | _ => none
  | .endStream =>
    match s.stream with
    | some ⟨frames, false⟩ => some { s with stream := some ⟨frames, true⟩ }
    | _ => none
  | .subscribed result =>
    match s.phase, result with
    | .subscribing, .ok () => some { s with phase := .selecting, stream := some ⟨[], false⟩ }
    | .subscribing, .error err => some (s.sendEos (some err))
    | _, _ => none
  | .noticeDrop =>
    match s.phase, s.dropped with
    -- nothing is sent
    | .subscribing, true => some { s with phase := .ended }
    | .selecting, true => some (s.sendEos none)
    | _, _ => none
  | .notified =>
    match s.phase, s.permit with
    | .selecting, true => some { s with permit := false, phase := .receiving }
    | _, _ => none
  | .next =>
    match s.phase, s.stream with
    | .receiving, some ⟨frame :: frames, ended⟩ =>
      some ({ s with phase := .selecting, stream := some ⟨frames, ended⟩ }.sendFrame frame)
    | .receiving, some ⟨[], true⟩ => some (s.sendEos none)
    | _, _ => none

/-! ## What the task owes the client -/

def framesSent (s : State Frame Error) : List Frame := s.events.filterMap Event.frame?

/-- No step of the task is possible. -/
def Idle (s : State Frame Error) : Prop := ∀ a : Action Frame Error, a.isTask → s.step a = none

structure FollowsClient (s : State Frame Error) : Prop where
  /-- A frame for a read. -/
  demand : s.framesSent.length ≤ s.reads
  /-- Frames are sent once and in order. -/
  order : s.framesSent.Sublist s.arrived
  /-- Nothing comes after the end, and there is one at most. -/
  last : ∀ before error after, s.events = before ++ .eos error :: after → after = []
  /-- A read after the end returns it. -/
  answer : ∀ error, .eos error ∈ s.events → s.read.2 = some error
  /-- When the client has gone the task ends, and the subscription with it. -/
  released : s.dropped = true → s.Idle → s.phase = .ended ∧ s.stream = none

/-- The stream has nothing for the task, nor an end. -/
def isSilent (s : State Frame Error) : Bool := s.stream.any fun t => t.frames.isEmpty && !t.ended

/-- The condition on a step: while the task waits for a frame of a silent stream the handle is not
dropped, and when it has been dropped the task does not begin to. -/
def NoticesDrop (s : State Frame Error) : Action Frame Error → Prop
  | .drop => ¬ (s.phase = .receiving ∧ s.isSilent = true)
  | .notified => ¬ (s.dropped = true ∧ s.isSilent = true)
  | _ => True

/-! ## All that a step can be -/

inductive Turn (s : State Frame Error) : Action Frame Error → State Frame Error → Prop
  | read (h : s.eosEvent = none) : Turn s .read { s with permit := true, reads := s.reads + 1 }
  | readEnd : Turn s .read s
  | drop : Turn s .drop { s with dropped := true }
  | arrive (frame : Frame) (lost : ℕ) (frames : List Frame) (hs : s.stream = some ⟨frames, false⟩) :
      Turn s (.arrive frame lost) { s with
        stream := some ⟨frames.drop lost ++ [frame], false⟩, arrived := s.arrived ++ [frame] }
  | endStream (frames : List Frame) (hs : s.stream = some ⟨frames, false⟩) :
      Turn s .endStream { s with stream := some ⟨frames, true⟩ }
  | subscribed (hphase : s.phase = .subscribing) : Turn s (.subscribed (.ok ()))
      { s with phase := .selecting, stream := some ⟨[], false⟩ }
  | refused (err : Error) (hphase : s.phase = .subscribing) :
      Turn s (.subscribed (.error err)) (s.sendEos (some err))
  | give (hphase : s.phase = .subscribing) : Turn s .noticeDrop { s with phase := .ended }
  | leave (hphase : s.phase = .selecting) : Turn s .noticeDrop (s.sendEos none)
  | notified (hphase : s.phase = .selecting) (hpermit : s.permit = true) :
      Turn s .notified { s with permit := false, phase := .receiving }
  | send (frame : Frame) (frames : List Frame) (ended : Bool) (hphase : s.phase = .receiving)
      (hs : s.stream = some ⟨frame :: frames, ended⟩) : Turn s .next
        ({ s with phase := .selecting, stream := some ⟨frames, ended⟩ }.sendFrame frame)
  | finish (hphase : s.phase = .receiving) (hs : s.stream = some ⟨[], true⟩) :
      Turn s .next (s.sendEos none)

variable {s s' : State Frame Error} {a : Action Frame Error}

theorem turn (h : s.step a = some s') : Turn s a s' := by
  cases a with
  | read =>
    simp only [step, read] at h
    split at h
    · cases h
    · split at h
      · next hnone => exact some.inj h ▸ .read (isNone_iff_eq_none.mp hnone)
      · exact some.inj h ▸ .readEnd
  | drop =>
    simp only [step] at h
    split at h
    · cases h
    · exact some.inj h ▸ .drop
  | arrive frame lost =>
    simp only [step] at h
    split at h
    · next frames hs =>
      split at h
      · exact some.inj h ▸ .arrive frame lost frames hs
      · cases h
    · cases h
  | endStream =>
    simp only [step] at h
    split at h
    · next frames hs => exact some.inj h ▸ .endStream frames hs
    · cases h
  | subscribed result =>
    simp only [step] at h
    split at h
    · next hphase => exact some.inj h ▸ .subscribed hphase
    · next err hphase => exact some.inj h ▸ .refused err hphase
    · cases h
  | noticeDrop =>
    simp only [step] at h
    split at h
    · next hphase _ => exact some.inj h ▸ .give hphase
    · next hphase _ => exact some.inj h ▸ .leave hphase
    · cases h
  | notified =>
    simp only [step] at h
    split at h
    · next hphase hpermit => exact some.inj h ▸ .notified hphase hpermit
    · cases h
  | next =>
    simp only [step] at h
    split at h
    · next frame frames ended hphase hs =>
      exact some.inj h ▸ .send frame frames ended hphase hs
    · next hphase hs => exact some.inj h ▸ .finish hphase hs
    · cases h

/-! ## What holds of every reachable state -/

/-- The frames that the task can still take. -/
def waiting (s : State Frame Error) : List Frame := s.stream.elim [] Stream.frames

structure Inv (s : State Frame Error) : Prop where
  /-- A permit and a frame that the task waits for are each for a read. -/
  demand : s.framesSent.length + s.permit.toNat + (if s.phase = .receiving then 1 else 0) ≤ s.reads
  order : (s.framesSent ++ s.waiting).Sublist s.arrived
  stream : s.stream.isSome ↔ s.phase = .selecting ∨ s.phase = .receiving
  unended : s.phase ≠ .ended → s.eosEvent = none ∧ ∀ error, .eos error ∉ s.events
  last : ∀ before error after, s.events = before ++ .eos error :: after →
    after = [] ∧ s.eosEvent = some error

theorem inv_new : (new : State Frame Error).Inv where
  demand := Nat.le_refl 0
  order := List.Sublist.refl []
  stream := by simp [new]
  unended _ := ⟨rfl, fun _ => not_mem_nil⟩
  last before error after h := by simp [new] at h

/-- The task ends with the end of the stream. -/
theorem Inv.sendEos (h : s.Inv) (hphase : s.phase ≠ .ended) (error : Option Error) :
    (s.sendEos error).Inv := by
  obtain ⟨hnone, hno⟩ := h.unended hphase
  have hframes : (s.sendEos error).framesSent = s.framesSent := by
    simp [framesSent, State.sendEos, Event.frame?]
  constructor
  · have hdemand := h.demand
    rw [hframes]
    show s.framesSent.length + s.permit.toNat + 0 ≤ s.reads
    omega
  · rw [hframes]
    show (s.framesSent ++ []).Sublist s.arrived
    rw [append_nil]
    exact (sublist_append_left _ _).trans h.order
  · simp [State.sendEos]
  · exact fun hne => absurd rfl hne
  · intro before error' after heq
    change s.events ++ [.eos error] = before ++ .eos error' :: after at heq
    show after = [] ∧ s.eosEvent.or (some error) = some error'
    rcases eq_nil_or_concat after with rfl | ⟨after, event, rfl⟩
    · cases (append_inj' heq rfl).2
      exact ⟨rfl, by rw [hnone, none_or]⟩
    · -- there was an end before
      rw [concat_eq_append, ← cons_append, ← append_assoc] at heq
      refine absurd ?_ (hno error')
      rw [(append_inj' heq rfl).1]
      exact mem_append_right _ mem_cons_self

/-- Nothing is sent, and no frame is taken. -/
theorem Inv.frame (h : s.Inv) (hevents : s'.events = s.events) (heos : s'.eosEvent = s.eosEvent)
    (hdemand : s'.permit.toNat + (if s'.phase = .receiving then 1 else 0) + s.reads
      ≤ s.permit.toNat + (if s.phase = .receiving then 1 else 0) + s'.reads)
    (horder : (s.framesSent ++ s'.waiting).Sublist s'.arrived)
    (hstream : s'.stream.isSome ↔ s'.phase = .selecting ∨ s'.phase = .receiving)
    (hended : s'.phase ≠ .ended → s.phase ≠ .ended) : s'.Inv := by
  have hframes : s'.framesSent = s.framesSent := by rw [framesSent, hevents, framesSent]
  constructor
  · have hle := h.demand
    rw [hframes]
    omega
  · rwa [hframes]
  · exact hstream
  · rw [heos, hevents]
    exact fun hne => h.unended (hended hne)
  · rw [heos, hevents]
    exact h.last

/-- A frame is sent for the read that the task has taken the permit of. -/
theorem Inv.send (h : s.Inv) {frame : Frame} {frames : List Frame} {ended : Bool}
    (hphase : s.phase = .receiving) (hs : s.stream = some ⟨frame :: frames, ended⟩) :
    ({ s with phase := .selecting, stream := some ⟨frames, ended⟩ }.sendFrame frame).Inv := by
  obtain ⟨hnone, hno⟩ := h.unended (by simp [hphase])
  have hframes : ({ s with phase := .selecting, stream := some ⟨frames, ended⟩ }.sendFrame
      frame).framesSent = s.framesSent ++ [frame] := by
    simp [framesSent, sendFrame, Event.frame?]
  have hno' : ∀ error, .eos error ∉ s.events ++ [.frameReceived frame] := by
    intro error hmem
    rcases mem_append.mp hmem with hmem | hmem
    · exact hno error hmem
    · cases mem_singleton.mp hmem
  constructor
  · have hdemand := h.demand
    rw [if_pos hphase] at hdemand
    rw [hframes, length_append]
    show s.framesSent.length + 1 + s.permit.toNat + 0 ≤ s.reads
    omega
  · have horder := h.order
    rw [waiting, hs] at horder
    rw [hframes]
    show (s.framesSent ++ [frame] ++ frames).Sublist s.arrived
    rwa [append_assoc]
  · exact iff_of_true rfl (.inl rfl)
  · exact fun _ => ⟨hnone, hno'⟩
  · intro before error after heq
    refine absurd ?_ (hno' error)
    change s.events ++ [.frameReceived frame] = _ at heq
    rw [heq]
    exact mem_append_right _ mem_cons_self

theorem inv_step (h : s.Inv) (hstep : s.step a = some s') : s'.Inv := by
  cases turn hstep with
  | read hnone =>
    refine h.frame rfl rfl ?_ h.order h.stream id
    simp only [Bool.toNat_true]
    omega
  | readEnd => exact h
  | drop => exact h.frame rfl rfl (Nat.le_refl _) h.order h.stream id
  | arrive frame lost frames hs =>
    have hopen := h.stream.mp (by rw [hs]; rfl)
    refine h.frame rfl rfl (Nat.le_refl _) ?_ (iff_of_true rfl hopen) id
    have horder := h.order
    rw [waiting, hs] at horder
    show (s.framesSent ++ (frames.drop lost ++ [frame])).Sublist (s.arrived ++ [frame])
    rw [← append_assoc]
    exact (((drop_sublist lost frames).append_left _).trans horder).append_right _
  | endStream frames hs =>
    have hopen := h.stream.mp (by rw [hs]; rfl)
    refine h.frame rfl rfl (Nat.le_refl _) ?_ (iff_of_true rfl hopen) id
    have horder := h.order
    rwa [waiting, hs] at horder
  | subscribed hphase =>
    refine h.frame rfl rfl ?_ ?_ (iff_of_true rfl (.inl rfl)) (by simp [hphase])
    · simp [hphase]
    · show (s.framesSent ++ []).Sublist s.arrived
      rw [append_nil]
      exact (sublist_append_left _ _).trans h.order
  | refused _ hphase | leave hphase | finish hphase => exact h.sendEos (by simp [hphase]) _
  | give hphase =>
    refine h.frame rfl rfl ?_ h.order ?_ (fun hne => absurd rfl hne)
    · simp [hphase]
    · rw [h.stream]
      simp [hphase]
  | notified hphase hpermit =>
    have hsome := h.stream.mpr (.inl hphase)
    refine h.frame rfl rfl ?_ h.order (iff_of_true hsome (.inr rfl)) (by simp [hphase])
    simp [hphase, hpermit]
  | send frame frames ended hphase hs => exact h.send hphase hs

/-! ## Getting stuck -/

/-- The client has gone, and the task waits for a frame of a silent stream. -/
def Stuck (s : State Frame Error) : Prop :=
  s.dropped = true ∧ s.phase = .receiving ∧ s.isSilent = true

theorem isSilent_eq {t : Stream Frame} (hs : s.stream = some t) (h : s.isSilent = true) :
    t = ⟨[], false⟩ := by
  obtain ⟨frames, ended⟩ := t
  rw [isSilent, hs] at h
  cases frames with
  | nil =>
    cases ended with
    | false => rfl
    | true => cases h
  | cons => cases h

theorem Inv.followsClient (h : s.Inv) (hstuck : ¬ s.Stuck) : s.FollowsClient where
  demand := by
    have hdemand := h.demand
    omega
  order := (sublist_append_left _ _).trans h.order
  last before error after heq := (h.last before error after heq).1
  answer error hmem := by
    obtain ⟨before, after, heq⟩ := append_of_mem hmem
    exact (h.last before error after heq).2
  released hdropped hidle := by
    cases hphase : s.phase with
    | subscribing | selecting =>
      have hnotice := hidle .noticeDrop rfl
      simp [step, hphase, hdropped] at hnotice
    | receiving =>
      exfalso
      obtain ⟨⟨frames, ended⟩, hs⟩ := isSome_iff_exists.mp (h.stream.mpr (.inr hphase))
      have hnext := hidle .next rfl
      apply hstuck
      refine ⟨hdropped, hphase, ?_⟩
      cases frames with
      | nil =>
        cases ended with
        | false => rw [isSilent, hs]; rfl
        | true => simp [step, hphase, hs] at hnext
      | cons frame frames => simp [step, hphase, hs] at hnext
    | ended =>
      refine ⟨rfl, ?_⟩
      have hnone := h.stream.not.mpr (by simp [hphase])
      simpa using hnone

/-- A task that is stuck has no step, and has not ended. -/
theorem Stuck.not_followsClient (h : s.Stuck) : ¬ s.FollowsClient := by
  obtain ⟨hdropped, hphase, hsilent⟩ := h
  intro hfollows
  have hidle : s.Idle := by
    intro a ha
    cases a with
    | subscribed | noticeDrop | notified => simp [step, hphase]
    | next =>
      cases hs : s.stream with
      | none => simp [step, hphase, hs]
      | some t =>
        rw [isSilent_eq hs hsilent] at hs
        simp [step, hphase, hs]
    | _ => cases ha
  have hended := (hfollows.released hdropped hidle).1
  cases hphase.symm.trans hended

theorem stuck_iff (h : ¬ s.Stuck) (hstep : s.step a = some s') :
    s'.Stuck ↔ ¬ s.NoticesDrop a := by
  unfold Stuck at h ⊢
  cases turn hstep with
  | drop | notified | arrive | endStream => simp [NoticesDrop, isSilent]
  | read | readEnd => exact iff_of_false h (not_not.mpr trivial)
  | _ => exact iff_of_false (fun hc => by cases hc.2.1) (not_not.mpr trivial)

/-- **The stream follows the client.** In every state of a run frames are sent for reads, once and
in order, the end comes last and is what later reads return, and the subscription is given up when
the client has gone, exactly if the handle is never dropped while the task waits for a frame of a
silent stream, and the task does not begin to do so after that. -/
theorem follows_client_iff (run : List (Action Frame Error)) :
    Throughout step FollowsClient (new : State Frame Error) run ↔
      EachStep step (fun s a _ => s.NoticesDrop a) (new : State Frame Error) run := by
  refine throughout_iff_eachStep (I := fun s => s.Inv ∧ ¬ s.Stuck)
    (fun s h => h.1.followsClient h.2) ?_ ⟨inv_new, by simp [Stuck, new]⟩ run
  intro s a s' h hstep
  have hinv := inv_step h.1 hstep
  by_cases hstuck : s'.Stuck
  · exact .inr ⟨(stuck_iff h.2 hstep).mp hstuck, hstuck.not_followsClient⟩
  · exact .inl ⟨not_not.mp fun hnot => hstuck ((stuck_iff h.2 hstep).mpr hnot), hinv, hstuck⟩

/-- The client reads from a silent stream and drops the handle: the subscription stays. -/
theorem drop_unnoticed : ¬ ∀ run : List (Action ℕ Unit),
    Throughout step FollowsClient (new : State ℕ Unit) run := by
  intro h
  have hstuck : Stuck
      (⟨true, false, none, .receiving, some ⟨[], false⟩, [], 1, []⟩ : State ℕ Unit) :=
    ⟨rfl, rfl, rfl⟩
  exact hstuck.not_followsClient
    (h [.subscribed (.ok ()), .read, .notified, .drop] _ [] _ (append_nil _).symm rfl)

end State

end LiveKit.DataTrackStream
