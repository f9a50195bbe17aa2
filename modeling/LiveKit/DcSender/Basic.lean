import LiveKit.DataStream.Basic
import LiveKit.Lib.TransitionSystem

/-!
# The sender of the data track channel

`dc_sender.rs`. Producers put whole frames into a bounded queue, which gives up the oldest frame
when it is full. One task takes a frame at a time and passes its packets to the data channel, as
long as not too much is buffered there.

The log `passed` of the sender is what was passed to the data channel. Whether the data channel
accepted it makes no difference to the sender.
-/

namespace LiveKit.DcSender

open LiveKit.DataStream (Bytes)

/-- A single application-level frame's worth of serialized packets. -/
abbrev DataTrackFramePackets := List Bytes

/-! ## The queue -/

/-- Bounded, drop-oldest send queue. -/
structure DataTrackSendQueue where
  queue : List DataTrackFramePackets
  capacity : ℕ

namespace DataTrackSendQueue

def new (capacity : ℕ) : DataTrackSendQueue := ⟨[], capacity⟩

/-- Enqueue all packets for a single frame, returning the evicted oldest frame if the queue was at
capacity. -/
def send (self : DataTrackSendQueue) (packets : DataTrackFramePackets) :
    Option DataTrackFramePackets × DataTrackSendQueue :=
  if packets.isEmpty then (none, self)
  else if self.capacity ≤ self.queue.length then
    (self.queue.head?, { self with queue := self.queue.tail ++ [packets] })
  else (none, { self with queue := self.queue ++ [packets] })

def tryPop (self : DataTrackSendQueue) : Option (DataTrackFramePackets × DataTrackSendQueue) :=
  match self.queue with
  | [] => none
  | packets :: queue => some (packets, { self with queue })

def drain (self : DataTrackSendQueue) : List DataTrackFramePackets × DataTrackSendQueue :=
  (self.queue, { self with queue := [] })

end DataTrackSendQueue

/-! ## The sender -/

structure DataChannelSender where
  /-- The task runs. -/
  running : Bool
  /-- Drop-oldest queue of whole frames waiting for the data channel to drain. -/
  queue : DataTrackSendQueue
  /-- Packets from the frame currently being dispatched, in FIFO order. -/
  inFlight : List Bytes
  /-- The numbers of bytes that the data channel has reported as sent. -/
  dcEvents : List ℕ
  lowBufferThreshold : ℕ
  /-- Number of bytes in the data channel's internal buffer. -/
  bufferedAmount : ℕ
  /-- What was passed to the data channel. -/
  passed : List Bytes

namespace DataChannelSender

/-- A new sender, for a queue of the capacity. -/
def new (capacity lowBufferThreshold : ℕ) : DataChannelSender :=
  ⟨true, .new capacity, [], [], lowBufferThreshold, 0, []⟩

def dispatch (s : DataChannelSender) (payload : Bytes) : DataChannelSender :=
  { s with
    bufferedAmount := s.bufferedAmount + payload.length
    passed := s.passed ++ [payload] }

/-- The loop of `drain_in_flight`, over the packets in flight. -/
def drainLoop (s : DataChannelSender) : List Bytes → DataChannelSender
  | [] => { s with inFlight := [] }
  | packet :: packets =>
    if s.bufferedAmount ≤ s.lowBufferThreshold then (s.dispatch packet).drainLoop packets
    else { s with inFlight := packet :: packets }

/-- Dispatch as many in-flight packets as possible without exceeding the buffered-amount low
threshold. -/
def drainInFlight (s : DataChannelSender) : DataChannelSender := s.drainLoop s.inFlight

def handleBytesSent (s : DataChannelSender) (bytesSent : ℕ) : DataChannelSender :=
  -- Unexpected buffer amount
  if s.bufferedAmount < bytesSent then { s with bufferedAmount := 0 }
  else { s with bufferedAmount := s.bufferedAmount - bytesSent }

end DataChannelSender

inductive Action where
  /-- `DataTrackSendQueue::send`, by a producer. -/
  | send (packets : DataTrackFramePackets)
  /-- The data channel reports bytes as sent. -/
  | bytesSent (bytesSent : ℕ)
  /-- The task handles a report. -/
  | event
  /-- The task takes a frame. -/
  | recv
  /-- The task ends. -/
  | close

namespace DataChannelSender

/-- The branches of the task's `select!` are taken in any order. -/
def step (s : DataChannelSender) : Action → Option DataChannelSender
  | .send packets => some { s with queue := (s.queue.send packets).2 }
  | .bytesSent bytesSent =>
    -- the callback holds a weak sender
    if s.running then some { s with dcEvents := s.dcEvents ++ [bytesSent] } else some s
  | .event =>
    match s.running, s.dcEvents with
    | true, bytesSent :: dcEvents =>
      some ({ s with dcEvents }.handleBytesSent bytesSent).drainInFlight
    | _, _ => none
  | .recv =>
    if s.running ∧ s.inFlight = [] ∧ s.bufferedAmount ≤ s.lowBufferThreshold then
      match s.queue.tryPop with
      | none => none
      | some (packets, queue) =>
        some { s with queue, inFlight := s.inFlight ++ packets }.drainInFlight
    else none
  | .close =>
    if s.running then some { s with running := false, queue := s.queue.drain.2 } else none

end DataChannelSender

end LiveKit.DcSender
