import LiveKit.DcSender.Basic
import LiveKit.Lib.FlowControl

/-!
# What the sender does in a step

The packets in flight go out by the rule of the flow control, and each branch of the task is
described by what it does to the state.
-/

namespace LiveKit.DcSender.DataChannelSender

open LiveKit.DataStream (Bytes)

theorem drainLoop_eq (s : DataChannelSender) (packets : List Bytes) :
    let now := FlowControl.sendable List.length s.lowBufferThreshold s.bufferedAmount packets
    s.drainLoop packets = { s with
      inFlight := FlowControl.held List.length s.lowBufferThreshold s.bufferedAmount packets
      bufferedAmount := s.bufferedAmount + Backlog.total List.length now
      passed := s.passed ++ now } := by
  induction packets generalizing s with
  | nil =>
    show _ = { s with
      inFlight := []
      bufferedAmount := s.bufferedAmount + 0
      passed := s.passed ++ [] }
    rw [List.append_nil, Nat.add_zero]
    rfl
  | cons packet packets ih =>
    rw [drainLoop, FlowControl.sendable, FlowControl.held]
    by_cases hroom : s.bufferedAmount ≤ s.lowBufferThreshold
    · simp only [if_pos hroom]
      rw [ih, Backlog.total_cons, ← Nat.add_assoc]
      show { s with inFlight := _, bufferedAmount := _, passed := (s.passed ++ [packet]) ++ _ } = _
      rw [List.append_assoc]
      rfl
    · simp only [if_neg hroom]
      show _ = { s with
        inFlight := packet :: packets
        bufferedAmount := s.bufferedAmount + 0
        passed := s.passed ++ [] }
      rw [List.append_nil, Nat.add_zero]

theorem drainInFlight_eq (s : DataChannelSender) :
    let now := FlowControl.sendable List.length s.lowBufferThreshold s.bufferedAmount s.inFlight
    s.drainInFlight = { s with
      inFlight := FlowControl.held List.length s.lowBufferThreshold s.bufferedAmount s.inFlight
      bufferedAmount := s.bufferedAmount + Backlog.total List.length now
      passed := s.passed ++ now } :=
  s.drainLoop_eq s.inFlight

theorem handleBytesSent_eq (s : DataChannelSender) (bytesSent : ℕ) :
    s.handleBytesSent bytesSent = { s with bufferedAmount := s.bufferedAmount - bytesSent } := by
  unfold handleBytesSent
  split
  · next hlt => rw [Nat.sub_eq_zero_of_le (Nat.le_of_lt hlt)]
  · rfl

/-- What a step can do. -/
inductive Turn (s : DataChannelSender) : Action → DataChannelSender → Prop
  | send (packets : DataTrackFramePackets) :
    Turn s (.send packets) { s with queue := (s.queue.send packets).2 }
  | reported (bytesSent : ℕ) (hrunning : s.running = true) :
    Turn s (.bytesSent bytesSent) { s with dcEvents := s.dcEvents ++ [bytesSent] }
  | ignored (bytesSent : ℕ) (hended : s.running = false) : Turn s (.bytesSent bytesSent) s
  | event (bytesSent : ℕ) (dcEvents : List ℕ) (hrunning : s.running = true)
    (hevents : s.dcEvents = bytesSent :: dcEvents) :
    Turn s .event
      { s with dcEvents, bufferedAmount := s.bufferedAmount - bytesSent }.drainInFlight
  | recv (packets : DataTrackFramePackets) (queue : List DataTrackFramePackets)
    (hrunning : s.running = true) (hinFlight : s.inFlight = [])
    (hroom : s.bufferedAmount ≤ s.lowBufferThreshold) (hqueue : s.queue.queue = packets :: queue) :
    Turn s .recv
      { s with queue := { s.queue with queue }, inFlight := packets }.drainInFlight
  | close (hrunning : s.running = true) :
    Turn s .close { s with running := false, queue := { s.queue with queue := [] } }

theorem step_cases {s s' : DataChannelSender} {a : Action} (hstep : s.step a = some s') :
    s.Turn a s' := by
  cases a with
  | send packets =>
    rw [← Option.some.inj hstep]
    exact .send packets
  | bytesSent bytesSent =>
    simp only [step] at hstep
    -- a report to a task that has ended is lost
    by_cases hrunning : s.running = true
    · rw [if_pos hrunning, Option.some.injEq] at hstep
      rw [← hstep]
      exact .reported bytesSent hrunning
    · rw [if_neg hrunning, Option.some.injEq] at hstep
      rw [← hstep]
      exact .ignored bytesSent (Bool.eq_false_iff.mpr hrunning)
  | event =>
    simp only [step] at hstep
    split at hstep
    · next bytesSent dcEvents hrunning hevents =>
      rw [Option.some.injEq, handleBytesSent_eq] at hstep
      rw [← hstep]
      exact .event bytesSent dcEvents hrunning hevents
    · cases hstep
  | recv =>
    simp only [step] at hstep
    split at hstep
    · next hready =>
      -- the guard of the branch: nothing in flight, and room in the channel
      obtain ⟨hrunning, hinFlight, hroom⟩ := hready
      unfold DataTrackSendQueue.tryPop at hstep
      cases hqueue : s.queue.queue with
      | nil =>
        rw [hqueue] at hstep
        cases hstep
      | cons packets queue =>
        rw [hqueue] at hstep
        simp only [hinFlight, List.nil_append, Option.some.injEq] at hstep
        rw [← hstep]
        exact .recv packets queue hrunning hinFlight hroom hqueue
    · cases hstep
  | close =>
    simp only [step] at hstep
    by_cases hrunning : s.running = true
    · rw [if_pos hrunning, Option.some.injEq] at hstep
      rw [← hstep]
      exact .close hrunning
    · rw [if_neg hrunning] at hstep
      cases hstep

end LiveKit.DcSender.DataChannelSender
