import LiveKit.Lib.Components
import LiveKit.SignalClient.Basic

/-!
# What a step of the signal client does

`step_cases` is the inversion of `State.step`: every step starts a call, ends the write task, or
takes one call to its next point. `Locked` says that the locks are in step with the points.
-/

namespace LiveKit.SignalClient

open FifoLock Option State

/-- The ways to go on: from the state `s`, the call `i` goes to `point`, after the data of the
state has become that of the second state. -/
inductive Turn (s : State) (i : ℕ) (call : Call) : Action → State → Point → Prop
  | push (hpoint : call.point = .start) (hqueueable : Queueable call.operation = true) :
      Turn s i call (.proceed i) s .enterPush
  | read (hpoint : call.point = .start) : Turn s i call (.proceed i) s .enterRead
  | flush (reconnecting : Bool) (hpoint : call.point = .start) :
      Turn s i call (.proceed i) { s with reconnecting } .enterFlush
  | write (reconnecting : Bool) (hpoint : call.point = .start)
      (hoperation : ∀ caller signal, call.operation ≠ .send caller signal) :
      Turn s i call (.proceed i) { s with reconnecting } .enterWrite
  | askPush (hpoint : call.point = .enterPush) : Turn s i call (.proceed i) s .pushQueue
  | pushed (hpoint : call.point = .pushQueue) (hholds : s.queueLock.holds i = true) :
      Turn s i call (.proceed i) { s with queue := s.queue ++ [i] } .done
  | askFlush (hpoint : call.point = .enterFlush) : Turn s i call (.proceed i) s .flushQueue
  | flushEmpty (hpoint : call.point = .flushQueue) (hholds : s.queueLock.holds i = true)
      (hempty : s.queue = []) : Turn s i call (.proceed i) s (afterFlush call.operation)
  | askStream (hpoint : call.point = .flushQueue) (hholds : s.queueLock.holds i = true)
      (hqueue : s.queue ≠ []) : Turn s i call (.proceed i) s .flushStream
  | flushing (hpoint : call.point = .flushStream) (hholds : s.streamLock.holds i = true)
      (hstream : s.stream ≠ none) : Turn s i call (.proceed i) s .flushing
  | noStream (hpoint : call.point = .flushStream) (hholds : s.streamLock.holds i = true)
      (hstream : s.stream = none) : Turn s i call (.proceed i) s .unlockQueue
  | take {signal : ℕ} {queue : List ℕ} (hpoint : call.point = .flushing)
      (hqueue : s.queue = signal :: queue) :
      Turn s i call (.proceed i) { s with queue } (.flushSend signal)
  | drained (hpoint : call.point = .flushing) (hempty : s.queue = []) :
      Turn s i call (.proceed i) s .unlockQueue
  | flushed (hpoint : call.point = .unlockQueue) :
      Turn s i call (.proceed i) s (afterFlush call.operation)
  | askRead (hpoint : call.point = .enterRead) : Turn s i call (.proceed i) s .readStream
  | sending (hpoint : call.point = .readStream) (hholds : s.streamLock.holds i = true)
      (hstream : s.stream ≠ none) : Turn s i call (.proceed i) s .sending
  | hold (hpoint : call.point = .readStream) (hholds : s.streamLock.holds i = true)
      (hqueueable : Queueable call.operation = true) : Turn s i call (.proceed i) s .enterHold
  | dropped (hpoint : call.point = .readStream) (hholds : s.streamLock.holds i = true)
      (hpass : Queueable call.operation = false) : Turn s i call (.proceed i) s .unlockRead
  | askHold (hpoint : call.point = .enterHold) : Turn s i call (.proceed i) s .holdQueue
  | held (hpoint : call.point = .holdQueue) (hholds : s.queueLock.holds i = true) :
      Turn s i call (.proceed i) { s with queue := s.queue ++ [i] } .unlockRead
  | sent (hpoint : call.point = .unlockRead) : Turn s i call (.proceed i) s .done
  | askWrite (hpoint : call.point = .enterWrite) : Turn s i call (.proceed i) s .writeStream
  | takeStream (hpoint : call.point = .writeStream) (hholds : s.streamLock.holds i = true) :
      Turn s i call (.proceed i) { s with stream := none } .closing
  | connect (hpoint : call.point = .writeStream) (hholds : s.streamLock.holds i = true) :
      Turn s i call (.proceed i) s .connecting
  | noOldStream (hpoint : call.point = .writeStream) (hholds : s.streamLock.holds i = true) :
      Turn s i call (.proceed i) s .unlockWrite
  | unlocked (hpoint : call.point = .unlockWrite) : Turn s i call (.proceed i) s .done
  | failing (hpoint : call.point = .failing) : Turn s i call (.proceed i) s .failed
  | failed (hpoint : call.point = .failed) :
      Turn s i call (.proceed i) { s with reconnecting := false } .done
  | flushOk {signal : ℕ} (hpoint : call.point = .flushSend signal) :
      Turn s i call (.written i .ok) { s with wire := s.wire ++ [signal] } .flushing
  | flushError {signal : ℕ} {result : SendResult} (stream : Option Stream)
      (hpoint : call.point = .flushSend signal) (hresult : result ≠ .ok) :
      Turn s i call (.written i result) { s with stream } .flushing
  | sendOk (hpoint : call.point = .sending) :
      Turn s i call (.written i .ok) { s with wire := s.wire ++ [i] } .unlockRead
  | sendLost {result : SendResult} (stream : Option Stream) (hpoint : call.point = .sending)
      (hresult : result ≠ .ok) (hlost : result = .wsError ∨ Queueable call.operation = false) :
      Turn s i call (.written i result) { s with stream } .unlockRead
  | sendHold (hpoint : call.point = .sending) (hqueueable : Queueable call.operation = true) :
      Turn s i call (.written i .sendError) s .enterHold
  | closedRestart (hpoint : call.point = .closing) : Turn s i call (.closed i) s .connecting
  | closedClose (hpoint : call.point = .closing) : Turn s i call (.closed i) s .unlockWrite
  | install (hpoint : call.point = .connecting) :
      Turn s i call (.reconnected i true) { s with stream := some ⟨true⟩ } .unlockWrite
  | refused (hpoint : call.point = .connecting) :
      Turn s i call (.reconnected i false) s .failing

variable {call : Call}

theorem turn_of_begin (s : State) (i : ℕ) (hpoint : call.point = .start) :
    ∃ t point, Turn s i call (.proceed i) t point ∧ s.begin i call = t.goto i call point := by
  unfold begin
  split
  · next caller signal hop =>
    by_cases hpush : s.reconnecting = true ∧ ¬ isPassThrough signal = true
    · have hqueueable : Queueable call.operation = true := by
        rw [hop, Queueable]
        simp only [hpush.2, Bool.not_false]
      exact ⟨_, _, .push hpoint hqueueable, if_pos hpush⟩
    · by_cases hflush : ¬ s.reconnecting = true
      · exact ⟨_, _, .flush s.reconnecting hpoint, (if_neg hpush).trans (if_pos hflush)⟩
      · exact ⟨_, _, .read hpoint, (if_neg hpush).trans (if_neg hflush)⟩
  · exact ⟨_, _, .flush s.reconnecting hpoint, rfl⟩
  · exact ⟨_, _, .flush false hpoint, rfl⟩
  · next hop =>
    exact ⟨_, _, .write true hpoint (by rw [hop]; exact fun _ _ => Operation.noConfusion), rfl⟩
  · next hop =>
    exact ⟨_, _, .write s.reconnecting hpoint (by rw [hop]; exact fun _ _ => Operation.noConfusion),
      rfl⟩

variable {i : ℕ} {s s' : State}

theorem turn_of_proceed (h : s.proceed i call = some s') :
    ∃ t point, Turn s i call (.proceed i) t point ∧ s' = t.goto i call point := by
  unfold proceed at h
  cases hpoint : call.point with
  | start =>
    simp only [hpoint, some.injEq] at h
    rw [← h]
    exact turn_of_begin s i hpoint
  | enterPush =>
    simp only [hpoint, some.injEq] at h
    exact ⟨_, _, .askPush hpoint, h.symm⟩
  | pushQueue =>
    simp only [hpoint, ite_none_right_eq_some, some.injEq] at h
    exact ⟨_, _, .pushed hpoint h.1, h.2.symm⟩
  | enterFlush =>
    simp only [hpoint, some.injEq] at h
    exact ⟨_, _, .askFlush hpoint, h.symm⟩
  | flushQueue =>
    simp only [hpoint, ite_none_right_eq_some] at h
    obtain ⟨hholds, h⟩ := h
    by_cases hempty : s.queue = []
    · rw [if_pos hempty, some.injEq] at h
      exact ⟨_, _, .flushEmpty hpoint hholds hempty, h.symm⟩
    · rw [if_neg hempty, some.injEq] at h
      exact ⟨_, _, .askStream hpoint hholds hempty, h.symm⟩
  | flushStream =>
    simp only [hpoint, ite_none_right_eq_some] at h
    obtain ⟨hholds, h⟩ := h
    cases hstream : s.stream with
    | some stream =>
      rw [hstream, isSome_some, if_pos rfl, some.injEq] at h
      exact ⟨_, _, .flushing hpoint hholds (by rw [hstream]; exact some_ne_none _), h.symm⟩
    | none =>
      rw [hstream, if_neg (by decide), some.injEq] at h
      exact ⟨_, _, .noStream hpoint hholds hstream, h.symm⟩
  | flushing =>
    simp only [hpoint] at h
    cases hqueue : s.queue with
    | nil =>
      simp only [hqueue, some.injEq] at h
      exact ⟨_, _, .drained hpoint hqueue, h.symm⟩
    | cons signal queue =>
      simp only [hqueue, some.injEq] at h
      exact ⟨_, _, .take hpoint hqueue, h.symm⟩
  | flushSend | sending | closing | connecting | done =>
    simp only [hpoint] at h
    cases h
  | unlockQueue =>
    simp only [hpoint, some.injEq] at h
    exact ⟨_, _, .flushed hpoint, h.symm⟩
  | enterRead =>
    simp only [hpoint, some.injEq] at h
    exact ⟨_, _, .askRead hpoint, h.symm⟩
  | readStream =>
    simp only [hpoint, ite_none_right_eq_some] at h
    obtain ⟨hholds, h⟩ := h
    cases hstream : s.stream with
    | some stream =>
      rw [hstream, isSome_some, if_pos rfl, some.injEq] at h
      exact ⟨_, _, .sending hpoint hholds (by rw [hstream]; exact some_ne_none _), h.symm⟩
    | none =>
      rw [hstream, if_neg (by decide)] at h
      cases hqueueable : Queueable call.operation with
      | true =>
        rw [hqueueable, if_pos rfl, some.injEq] at h
        exact ⟨_, _, .hold hpoint hholds hqueueable, h.symm⟩
      | false =>
        rw [hqueueable, if_neg (by decide), some.injEq] at h
        exact ⟨_, _, .dropped hpoint hholds hqueueable, h.symm⟩
  | enterHold =>
    simp only [hpoint, some.injEq] at h
    exact ⟨_, _, .askHold hpoint, h.symm⟩
  | holdQueue =>
    simp only [hpoint, ite_none_right_eq_some, some.injEq] at h
    exact ⟨_, _, .held hpoint h.1, h.2.symm⟩
  | unlockRead =>
    simp only [hpoint, some.injEq] at h
    exact ⟨_, _, .sent hpoint, h.symm⟩
  | enterWrite =>
    simp only [hpoint, some.injEq] at h
    exact ⟨_, _, .askWrite hpoint, h.symm⟩
  | writeStream =>
    simp only [hpoint, ite_none_right_eq_some] at h
    obtain ⟨hholds, h⟩ := h
    by_cases hstream : s.stream.isSome = true
    · rw [if_pos hstream, some.injEq] at h
      exact ⟨_, _, .takeStream hpoint hholds, h.symm⟩
    · rw [if_neg hstream] at h
      by_cases hop : call.operation = .restart
      · rw [if_pos hop, some.injEq] at h
        exact ⟨_, _, .connect hpoint hholds, h.symm⟩
      · rw [if_neg hop, some.injEq] at h
        exact ⟨_, _, .noOldStream hpoint hholds, h.symm⟩
  | unlockWrite =>
    simp only [hpoint, some.injEq] at h
    exact ⟨_, _, .unlocked hpoint, h.symm⟩
  | failing =>
    simp only [hpoint, some.injEq] at h
    exact ⟨_, _, .failing hpoint, h.symm⟩
  | failed =>
    simp only [hpoint, some.injEq] at h
    exact ⟨_, _, .failed hpoint, h.symm⟩

variable {t : State}

/-- What the write task answers, and what it leaves in the slot. -/
theorem write_cases {signal : ℕ} {result : SendResult} (h : s.write signal result = some t) :
    (result = .ok ∧ t = { s with wire := s.wire ++ [signal] }) ∨
      (result = .wsError ∧ t = { s with stream := some ⟨false⟩ }) ∨
      (result = .sendError ∧ t = s) := by
  cases result with
  | ok =>
    rw [write, ite_none_right_eq_some, some.injEq] at h
    exact .inl ⟨rfl, h.2.symm⟩
  | wsError =>
    rw [write, ite_none_right_eq_some, some.injEq] at h
    exact .inr (.inl ⟨rfl, h.2.symm⟩)
  | sendError =>
    rw [write, ite_none_right_eq_some, some.injEq] at h
    exact .inr (.inr ⟨rfl, h.2.symm⟩)

theorem turn_of_written {result : SendResult} (h : s.written i result call = some s') :
    ∃ t point, Turn s i call (.written i result) t point ∧ s' = t.goto i call point := by
  unfold written at h
  split at h
  · next signal hpoint =>
    obtain ⟨t, hwrite, rfl⟩ := map_eq_some_iff.mp h
    rcases write_cases hwrite with ⟨rfl, rfl⟩ | ⟨rfl, rfl⟩ | ⟨rfl, rfl⟩
    · exact ⟨_, _, .flushOk hpoint, rfl⟩
    · exact ⟨_, _, .flushError (some ⟨false⟩) hpoint (by decide), rfl⟩
    · exact ⟨_, _, .flushError t.stream hpoint (by decide), rfl⟩
  · next hpoint =>
    obtain ⟨t, hwrite, rfl⟩ := map_eq_some_iff.mp h
    rcases write_cases hwrite with ⟨rfl, rfl⟩ | ⟨rfl, rfl⟩ | ⟨rfl, rfl⟩
    · exact ⟨_, _, .sendOk hpoint, if_neg (by simp)⟩
    · exact ⟨_, _, .sendLost (some ⟨false⟩) hpoint (by decide) (.inl rfl), if_neg (by simp)⟩
    · cases hqueueable : Queueable call.operation with
      | true => exact ⟨_, _, .sendHold hpoint hqueueable, if_pos ⟨rfl, rfl⟩⟩
      | false =>
        exact ⟨_, _, .sendLost t.stream hpoint (by decide) (.inr hqueueable), if_neg (by simp)⟩
  · cases h

theorem turn_of_closed (h : s.closed i call = some s') :
    ∃ t point, Turn s i call (.closed i) t point ∧ s' = t.goto i call point := by
  unfold closed at h
  split at h
  · next hpoint =>
    by_cases hop : call.operation = .restart
    · rw [if_pos hop, some.injEq] at h
      exact ⟨_, _, .closedRestart hpoint, h.symm⟩
    · rw [if_neg hop, some.injEq] at h
      exact ⟨_, _, .closedClose hpoint, h.symm⟩
  · cases h

theorem turn_of_reconnected {ok : Bool} (h : s.reconnected i ok call = some s') :
    ∃ t point, Turn s i call (.reconnected i ok) t point ∧ s' = t.goto i call point := by
  unfold reconnected at h
  split at h
  · next hpoint =>
    cases ok with
    | true =>
      rw [if_pos rfl, some.injEq] at h
      exact ⟨_, _, .install hpoint, h.symm⟩
    | false =>
      rw [if_neg (by decide), some.injEq] at h
      exact ⟨_, _, .refused hpoint, h.symm⟩
  · cases h

variable {a : Action}

/-- A step starts a call, takes one to its next point, or ends the write task. -/
theorem step_cases (h : s.step a = some s') :
    (∃ operation, a = .call operation ∧ s.mayCall operation = true ∧
      s' = { s with calls := s.calls ++ [⟨operation, .start⟩] }) ∨
    (∃ i call t point, s.calls[i]? = some call ∧ Turn s i call a t point ∧
      s' = t.goto i call point) ∨
    (a = .writeTaskEnds ∧ s' = { s with stream := some ⟨false⟩ }) := by
  cases a with
  | call operation =>
    rw [step, ite_none_right_eq_some, some.injEq] at h
    exact .inl ⟨operation, rfl, h.1, h.2.symm⟩
  | proceed i =>
    obtain ⟨call, hcall, hproceed⟩ := bind_eq_some_iff.mp h
    obtain ⟨t, point, hturn, hs'⟩ := turn_of_proceed hproceed
    exact .inr (.inl ⟨i, call, t, point, hcall, hturn, hs'⟩)
  | written i result =>
    obtain ⟨call, hcall, hwritten⟩ := bind_eq_some_iff.mp h
    obtain ⟨t, point, hturn, hs'⟩ := turn_of_written hwritten
    exact .inr (.inl ⟨i, call, t, point, hcall, hturn, hs'⟩)
  | closed i =>
    obtain ⟨call, hcall, hclosed⟩ := bind_eq_some_iff.mp h
    obtain ⟨t, point, hturn, hs'⟩ := turn_of_closed hclosed
    exact .inr (.inl ⟨i, call, t, point, hcall, hturn, hs'⟩)
  | reconnected i ok =>
    obtain ⟨call, hcall, hreconnected⟩ := bind_eq_some_iff.mp h
    obtain ⟨t, point, hturn, hs'⟩ := turn_of_reconnected hreconnected
    exact .inr (.inl ⟨i, call, t, point, hcall, hturn, hs'⟩)
  | writeTaskEnds =>
    rw [step, ite_none_right_eq_some, some.injEq] at h
    exact .inr (.inr ⟨rfl, h.2.symm⟩)

/-! ## The locks -/

/-- At this point the lock of the queue has been obtained. -/
def Point.hasQueue : Point → Bool
  | .flushStream => true
  | .flushing => true
  | .flushSend _ => true
  | .unlockQueue => true
  | _ => false

/-- At this point the lock of the stream has been obtained. -/
def Point.hasStream : Point → Bool
  | .flushing => true
  | .flushSend _ => true
  | .sending => true
  | .enterHold => true
  | .holdQueue => true
  | .unlockRead => true
  | .closing => true
  | .connecting => true
  | .unlockWrite => true
  | .failing => true
  | _ => false

/-- The requests for the locks are those of the calls, and whoever goes on behind a lock has it. -/
structure Locked (s : State) : Prop where
  queueSingle : s.queueLock.Single
  streamSingle : s.streamLock.Single
  queue : ∀ i, s.queueLock.modeOf i = s.calls[i]?.bind fun call => call.point.queueRequest
  stream : ∀ i, s.streamLock.modeOf i = s.calls[i]?.bind fun call => call.point.streamRequest
  hasQueue : ∀ i call, s.calls[i]? = some call → call.point.hasQueue = true →
    s.queueLock.holds i = true
  hasStream : ∀ i call, s.calls[i]? = some call → call.point.hasStream = true →
    s.streamLock.holds i = true

theorem locked_connected : Locked State.connected where
  queueSingle := single_nil
  streamSingle := single_nil
  queue := fun _ => rfl
  stream := fun _ => rfl
  hasQueue := fun _ _ hcall => by cases hcall
  hasStream := fun _ _ hcall => by cases hcall

/-- The call that goes on is at the new point, the others stay where they are. -/
theorem getElem?_goto {j : ℕ} (point : Point) (hcall : s.calls[i]? = some call) :
    (s.goto i call point).calls[j]? =
      if j = i then some { call with point } else s.calls[j]? :=
  Components.getElem?_set hcall _ j

variable {point : Point}

/-- A turn leaves calls and locks to `goto`. -/
theorem Turn.frame (h : Turn s i call a t point) :
    t.calls = s.calls ∧ t.queueLock = s.queueLock ∧ t.streamLock = s.streamLock := by
  cases h <;> exact ⟨rfl, rfl, rfl⟩

/-- What is found after a turn is the call that goes on, or another where it was. -/
theorem Turn.of_getElem? {j : ℕ} {c : Call} (h : Turn s i call a t point)
    (hcall : s.calls[i]? = some call) (hc : (t.goto i call point).calls[j]? = some c) :
    j = i ∧ c = { call with point } ∨ j ≠ i ∧ s.calls[j]? = some c := by
  change (t.calls.set i _)[j]? = _ at hc
  rw [h.frame.1] at hc
  exact Components.of_getElem?_set hcall hc

@[simp] theorem hasQueue_afterFlush (operation : Operation) :
    (afterFlush operation).hasQueue = false := by
  cases operation <;> rfl

@[simp] theorem hasStream_afterFlush (operation : Operation) :
    (afterFlush operation).hasStream = false := by
  cases operation <;> rfl

/-- The queue is only asked for exclusively. -/
theorem queueRequest_eq (point : Point) :
    point.queueRequest = none ∨ point.queueRequest = some .exclusive := by
  cases point <;> simp [Point.queueRequest]

/-- A request for the stream is made or given back, or stays what it is. -/
theorem Turn.streamRequest (h : Turn s i call a t point) :
    call.point.streamRequest = none ∨ point.streamRequest = none ∨
      call.point.streamRequest = point.streamRequest := by
  cases h <;> simp_all [Point.streamRequest]

/-- Who is to have the queue after a turn has it. -/
theorem Turn.hasQueue (h : Turn s i call a t point) (hhas : point.hasQueue = true) :
    call.point.queueRequest = point.queueRequest ∧
      (call.point.hasQueue = true ∨ s.queueLock.holds i = true) := by
  cases h
  case askStream hpoint hholds _ => exact ⟨by rw [hpoint]; rfl, .inr hholds⟩
  case flushing hpoint _ _ => exact ⟨by rw [hpoint]; rfl, .inl (by rw [hpoint]; rfl)⟩
  case noStream hpoint _ _ => exact ⟨by rw [hpoint]; rfl, .inl (by rw [hpoint]; rfl)⟩
  case take hpoint _ => exact ⟨by rw [hpoint]; rfl, .inl (by rw [hpoint]; rfl)⟩
  case drained hpoint _ => exact ⟨by rw [hpoint]; rfl, .inl (by rw [hpoint]; rfl)⟩
  case flushOk hpoint => exact ⟨by rw [hpoint]; rfl, .inl (by rw [hpoint]; rfl)⟩
  case flushError hpoint _ => exact ⟨by rw [hpoint]; rfl, .inl (by rw [hpoint]; rfl)⟩
  case flushEmpty _ _ _ => rw [hasQueue_afterFlush] at hhas; cases hhas
  case flushed _ => rw [hasQueue_afterFlush] at hhas; cases hhas
  -- nobody else has it
  all_goals cases hhas

/-- Who is to have the stream after a turn has it. -/
theorem Turn.hasStream (h : Turn s i call a t point) (hhas : point.hasStream = true) :
    call.point.streamRequest = point.streamRequest ∧
      (call.point.hasStream = true ∨ s.streamLock.holds i = true) := by
  cases h
  case flushEmpty _ _ _ => rw [hasStream_afterFlush] at hhas; cases hhas
  case flushed _ => rw [hasStream_afterFlush] at hhas; cases hhas
  all_goals simp_all [Point.streamRequest, Point.hasStream]

/-! A lock with the points: what they ask of it, and at which of them it has been obtained. -/

section

variable {lock : FifoLock ℕ} {calls : List Call} {request : Point → Option LockMode}
  {has : Point → Bool}
  (hmode : ∀ j, lock.modeOf j = calls[j]?.bind fun call => request call.point)
  (hhas : ∀ j c, calls[j]? = some c → has c.point = true → lock.holds j = true)
include hmode hhas

/-- A lock stays in step with the points when a call goes on. -/
theorem lock_goto (hcall : calls[i]? = some call)
    (hrequest : request call.point = none ∨ request point = none ∨
      request call.point = request point)
    (hnew : has point = true → request call.point = request point ∧
      (has call.point = true ∨ lock.holds i = true)) :
    (∀ j, (lock.adjust i (request point)).modeOf j =
      (calls.set i { call with point })[j]?.bind fun call => request call.point) ∧
    ∀ j c, (calls.set i { call with point })[j]? = some c → has c.point = true →
      (lock.adjust i (request point)).holds j = true := by
  have hbefore : lock.modeOf i = request call.point := by
    rw [hmode, hcall]
    rfl
  constructor
  · intro j
    rw [Components.getElem?_set hcall]
    by_cases hj : j = i
    · rw [if_pos hj, hj, bind_some]
      apply modeOf_adjust_self
      rw [hbefore]
      exact hrequest
    · rw [if_neg hj, modeOf_adjust_of_ne _ _ hj, hmode]
  · intro j c hc hpoint
    rcases Components.of_getElem?_set hcall hc with ⟨rfl, rfl⟩ | ⟨hj, hc⟩
    · obtain ⟨hsame, hheld⟩ := hnew hpoint
      rw [adjust_of_modeOf (hbefore.trans hsame)]
      rcases hheld with hheld | hheld
      · exact hhas j call hcall hheld
      · exact hheld
    · exact holds_adjust_of_ne _ hj (hhas j c hc hpoint)

/-- A lock stays in step with the points when a call is started, which asks for nothing. -/
theorem lock_call (operation : Operation) (hrequest : request .start = none)
    (hstart : has .start = false) :
    (∀ j, lock.modeOf j =
      (calls ++ [⟨operation, .start⟩])[j]?.bind fun call => request call.point) ∧
    ∀ j c, (calls ++ [⟨operation, .start⟩])[j]? = some c → has c.point = true →
      lock.holds j = true := by
  constructor
  · intro j
    rw [Components.getElem?_concat, hmode]
    by_cases hj : j = calls.length
    · rw [if_pos hj, hj, List.getElem?_eq_none (Nat.le_refl _)]
      exact hrequest.symm
    · rw [if_neg hj]
  · refine Components.forall_concat hhas ?_
    intro hpoint
    cases hstart.symm.trans hpoint

end

/-- The locks stay in step with the points when a call goes on. -/
theorem Locked.goto (h : Locked s) (hcall : s.calls[i]? = some call)
    (hturn : Turn s i call a t point) : Locked (t.goto i call point) := by
  obtain ⟨hcalls, hqueueLock, hstreamLock⟩ := hturn.frame
  have hqueueRequest : call.point.queueRequest = none ∨ point.queueRequest = none ∨
      call.point.queueRequest = point.queueRequest := by
    rcases queueRequest_eq call.point with h₁ | h₁
    · exact .inl h₁
    · rcases queueRequest_eq point with h₂ | h₂
      · exact .inr (.inl h₂)
      · exact .inr (.inr (h₁.trans h₂.symm))
  obtain ⟨hqueue, hhasQueue⟩ := lock_goto h.queue h.hasQueue hcall hqueueRequest hturn.hasQueue
  obtain ⟨hstream, hhasStream⟩ :=
    lock_goto h.stream h.hasStream hcall hturn.streamRequest hturn.hasStream
  rw [← hcalls, ← hqueueLock] at hqueue hhasQueue
  rw [← hcalls, ← hstreamLock] at hstream hhasStream
  exact ⟨(hqueueLock ▸ h.queueSingle).adjust i _, (hstreamLock ▸ h.streamSingle).adjust i _,
    hqueue, hstream, hhasQueue, hhasStream⟩

/-- The locks stay in step with the points. -/
theorem Locked.step (h : Locked s) (hstep : s.step a = some s') : Locked s' := by
  rcases step_cases hstep with ⟨operation, -, -, rfl⟩ | ⟨i, call, t, point, hcall, hturn, rfl⟩ |
    ⟨-, rfl⟩
  · obtain ⟨hqueue, hhasQueue⟩ := lock_call h.queue h.hasQueue operation rfl rfl
    obtain ⟨hstream, hhasStream⟩ := lock_call h.stream h.hasStream operation rfl rfl
    exact ⟨h.queueSingle, h.streamSingle, hqueue, hstream, hhasQueue, hhasStream⟩
  · exact h.goto hcall hturn
  · exact ⟨h.queueSingle, h.streamSingle, h.queue, h.stream, h.hasQueue, h.hasStream⟩

end LiveKit.SignalClient
