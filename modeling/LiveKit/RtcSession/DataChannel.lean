import LiveKit.Lib.TransitionSystem
import LiveKit.RtcSession.Basic
import LiveKit.RtcSession.TxQueue

/-!
# The data channel task

`SessionInner::data_channel_task` in `rtc_session.rs`. One task gets the events of both data
channels from one queue, which it also puts events into itself: a packet that is published is
numbered and encoded first, and comes back as data. What can be sent at once goes to the channel,
the rest waits. The reliable packets that were sent are kept for a retry after a resume.

The log `sent` of a channel is what was handed to it. The results of sending and the notifications
of the publishers are left out.
-/

namespace LiveKit.RtcSession

open LiveKit.DataStream (Bytes)

structure EncodedPacket where
  /-- Encoded packet data. -/
  data : Bytes
  /-- Packet's sequence number. -/
  sequence : ℕ
deriving DecidableEq

instance : TxQueueItem EncodedPacket := ⟨fun packet => packet.data.length⟩

inductive DataChannelEventDetail where
  /-- Publish data packet. -/
  | publishPacket (packet : DataPacket)
  /-- Publish data packet that has already been encoded. -/
  | publishData (packet : EncodedPacket)
  /-- RTC buffered amount changed. -/
  | bufferedAmountChange (sent : ℕ)
  /-- Enqueue reliable packets for retry starting from the given sequence number. -/
  | retryFrom (lastSequence : ℕ)

structure DataChannelEvent where
  kind : DataPacketKind
  detail : DataChannelEventDetail

/-- What the task keeps for one data channel. -/
structure Channel where
  bufferedAmount : ℕ
  requestQueue : List EncodedPacket
  bufferedAmountLowThreshold : ℕ
  /-- What was handed to the data channel. -/
  sent : List EncodedPacket

structure State where
  /-- The task runs. -/
  running : Bool
  dcEvents : List DataChannelEvent
  nextPacketSequence : ℕ
  lossy : Channel
  reliable : Channel
  retryQueue : TxQueue EncodedPacket

def INITIAL_BUFFERED_AMOUNT_LOW_THRESHOLD : ℕ := 2 * 1024 * 1024

/-- The sequence numbers are of type `u32`. -/
def SEQUENCE_LIMIT : ℕ := 2 ^ 32

namespace Channel

def new : Channel := ⟨0, [], INITIAL_BUFFERED_AMOUNT_LOW_THRESHOLD, []⟩

/-- The loop of `_send_until_threshold`, over the requests that wait. -/
def sendLoop (kind : DataPacketKind) (threshold : ℕ) (bufferedAmount : ℕ)
    (sent : List EncodedPacket) (retryQueue : TxQueue EncodedPacket) :
    List EncodedPacket → Channel × TxQueue EncodedPacket
  | [] => (⟨bufferedAmount, [], threshold, sent⟩, retryQueue)
  | request :: requests =>
    if bufferedAmount ≤ threshold then
      sendLoop kind threshold (bufferedAmount + request.data.length) (sent ++ [request])
        (if kind = .reliable then retryQueue.enqueue request else retryQueue) requests
    else (⟨bufferedAmount, request :: requests, threshold, sent⟩, retryQueue)

def sendUntilThreshold (self : Channel) (kind : DataPacketKind)
    (retryQueue : TxQueue EncodedPacket) : Channel × TxQueue EncodedPacket :=
  sendLoop kind self.bufferedAmountLowThreshold self.bufferedAmount self.sent retryQueue
    self.requestQueue

/-- The bytes that were reported are not buffered any more; too many are an error. -/
def reportSent (self : Channel) (sent : ℕ) : Channel :=
  if self.bufferedAmount < sent then { self with bufferedAmount := 0 }
  else { self with bufferedAmount := self.bufferedAmount - sent }

end Channel

namespace State

/-- The state of a new session. -/
def new : State := ⟨true, [], 1, .new, .new, .new⟩

/-- The task gives up the reliable packets that it has kept, for those that the peer has not got
to be sent once more. -/
def enqueueForRetryFrom (s : State) (lastSequence : ℕ) : State :=
  let events := (s.retryQueue.inner.filter fun packet => ¬ packet.sequence ≤ lastSequence).map
    fun packet => (⟨.reliable, .publishData packet⟩ : DataChannelEvent)
  { s with dcEvents := s.dcEvents ++ events, retryQueue := .new }

section

variable (encode : DataPacket → Bytes)

/-- The task handles an event that it has taken from the queue. -/
def handle (s : State) (event : DataChannelEvent) : State :=
  match event.detail, event.kind with
  | .publishPacket packet, .reliable =>
    let packet := { packet with sequence := s.nextPacketSequence }
    { s with
      nextPacketSequence := (s.nextPacketSequence + 1) % SEQUENCE_LIMIT
      dcEvents := s.dcEvents
        ++ [⟨event.kind, .publishData ⟨encode packet, packet.sequence⟩⟩] }
  | .publishPacket packet, .lossy =>
    { s with dcEvents := s.dcEvents
        ++ [⟨event.kind, .publishData ⟨encode packet, packet.sequence⟩⟩] }
  | .publishData request, .lossy =>
    let channel := { s.lossy with requestQueue := s.lossy.requestQueue ++ [request] }
    let (lossy, retryQueue) := channel.sendUntilThreshold .lossy s.retryQueue
    { s with lossy, retryQueue }
  | .publishData request, .reliable =>
    let channel := { s.reliable with requestQueue := s.reliable.requestQueue ++ [request] }
    let (reliable, retryQueue) := channel.sendUntilThreshold .reliable s.retryQueue
    { s with reliable, retryQueue }
  | .bufferedAmountChange sent, .lossy =>
    let (lossy, retryQueue) := (s.lossy.reportSent sent).sendUntilThreshold .lossy s.retryQueue
    { s with lossy, retryQueue }
  | .bufferedAmountChange sent, .reliable =>
    let (reliable, retryQueue) :=
      (s.reliable.reportSent sent).sendUntilThreshold .reliable s.retryQueue
    { s with reliable, retryQueue := retryQueue.trim sent }
  | .retryFrom lastSequence, .reliable => s.enqueueForRetryFrom lastSequence
  -- the assertion fails
  | .retryFrom _, .lossy => { s with running := false }

end

end State

inductive Action where
  /-- `publish_data` -/
  | publishData (packet : DataPacket) (kind : DataPacketKind)
  /-- A data channel reports that bytes have been sent. -/
  | bufferedAmountChange (sent : ℕ) (kind : DataPacketKind)
  /-- `restart`, with the number in the answer of the server. -/
  | restart (lastMessageSeq : ℕ)
  | setThreshold (threshold : ℕ) (kind : DataPacketKind)
  /-- The task handles the next event. -/
  | task
  | close

namespace State

def emit (s : State) (event : DataChannelEvent) : State :=
  { s with dcEvents := s.dcEvents ++ [event] }

def step (encode : DataPacket → Bytes) (s : State) : Action → Option State
  | .publishData packet kind => some (s.emit ⟨kind, .publishPacket packet⟩)
  | .bufferedAmountChange sent kind => some (s.emit ⟨kind, .bufferedAmountChange sent⟩)
  | .restart lastMessageSeq => some (s.emit ⟨.reliable, .retryFrom lastMessageSeq⟩)
  | .setThreshold threshold .lossy =>
    some { s with lossy := { s.lossy with bufferedAmountLowThreshold := threshold } }
  | .setThreshold threshold .reliable =>
    some { s with reliable := { s.reliable with bufferedAmountLowThreshold := threshold } }
  | .task =>
    match s.running, s.dcEvents with
    | true, event :: events => some ({ s with dcEvents := events }.handle encode event)
    | _, _ => none
  | .close => some { s with running := false }

end State

end LiveKit.RtcSession
