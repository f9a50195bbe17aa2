import LiveKit.Lib.TransitionSystem
import LiveKit.PacketTrailer.Send

/-!
# Frames on their way

Frames are captured and encoded, in one or more layers; packets of one SSRC are received, and
decoded frames are looked up. All of this may happen in any order.
-/

namespace LiveKit.PacketTrailer

structure Captured where
  /-- Aligned, in microseconds. -/
  timestampUs : Int
  metadata : Option FrameMetadata

/-- An encoded layer of a frame. -/
structure Packet where
  /-- The number of the frame. -/
  frame : ℕ
  /-- What was known of the frame when it was sent. -/
  embedded : PacketTrailerMetadata
  encoded : Frame

structure State where
  captured : List Captured
  sender : SendTransformer
  packets : List Packet
  receiver : PacketTrailerHandler Unit
  received : List Packet
  /-- The RTP timestamps of the frames that have been looked up. -/
  presented : List UInt32

def State.new : State where
  captured := []
  sender := ⟨∅, []⟩
  packets := []
  receiver := ⟨⟨some (), ∅, ∅, [], 0⟩, 0⟩
  received := []
  presented := []

inductive Action where
  | capture (timestampUs : Int) (metadata : Option FrameMetadata)
  /-- A layer of the frame of a number. -/
  | transformSend (i : ℕ) (layer : Frame)
  /-- The packet of a number arrives. -/
  | transformReceive (i : ℕ)
  | onFrame (rtpTimestamp : UInt32)

/-- The aligned capture timestamps are distinct; what arrives has the one SSRC and distinct RTP
timestamps; and every frame that arrives is looked up one time at most. -/
def step (ssrc : UInt32) (s : State) : Action → Option State
  | .capture timestampUs metadata =>
    if timestampUs ∈ s.captured.map Captured.timestampUs then none
    else some { s with
      captured := s.captured ++ [⟨timestampUs, metadata⟩]
      sender := s.sender.onCapturedFrame timestampUs (captureFrame metadata) }
  | .transformSend i layer => do
    let frame ← s.captured[i]?
    let captureUs := captureTime frame.timestampUs
    return { s with
      packets := s.packets ++
        [⟨i, s.sender.metaToEmbed captureUs, s.sender.transformSend captureUs layer⟩] }
  | .transformReceive i => do
    let packet ← s.packets[i]?
    if packet.encoded.ssrc = ssrc ∧
        packet.encoded.timestamp ∉ s.received.map (fun packet => packet.encoded.timestamp) then do
      let (transformer, _) ← s.receiver.transformer.transformReceive packet.encoded
      return { s with
        receiver := { s.receiver with transformer }
        received := s.received ++ [packet] }
    else none
  | .onFrame rtpTimestamp =>
    if rtpTimestamp ∈ s.received.map (fun packet => packet.encoded.timestamp) ∧
        rtpTimestamp ∉ s.presented then
      some { s with
        receiver := (s.receiver.onFrame rtpTimestamp).2
        presented := s.presented ++ [rtpTimestamp] }
    else none

/-- The number of a frame, and the metadata that is attached to it at the end. -/
abbrev Shown := ℕ × Option FrameMetadata

def shown (s : State) : Action → List Shown
  | .onFrame rtpTimestamp =>
    match s.received.find? fun packet => packet.encoded.timestamp = rtpTimestamp with
    | some packet => [(packet.frame, (s.receiver.onFrame rtpTimestamp).1)]
    | none => []
  | _ => []

/-! ## What is promised -/

/-- What is attached to a frame is what it was captured with. -/
def Survives (frames : List Shown) (s : State) : Prop :=
  ∀ frame ∈ frames, ∀ captured, s.captured[frame.1]? = some captured → frame.2 = captured.metadata

/-- What is known is that of the frame, and has a user timestamp, which is not the largest, and no
frame id 0. (Of a frame without metadata nothing must be left, as it would be shown as a
timestamp 0.) -/
def Faithful (present : Prop) (embedded : PacketTrailerMetadata) : Option FrameMetadata → Prop
  | some ⟨some userTimestamp, frameId⟩ =>
    present ∧ userTimestamp ≠ uint64Max ∧ frameId ≠ some 0 ∧
      embedded.userTimestamp = userTimestamp ∧ embedded.frameId = frameId.getD 0
  | some ⟨none, _⟩ => False
  | none => present → embedded.userTimestamp = uint64Max

/-- Whenever a frame is looked up, what was embedded for it is that of the frame, and it is still
known at the receiver. -/
def Good (s : State) (a : Action) (_ : State) : Prop :=
  match a with
  | .onFrame rtpTimestamp => ∀ packet ∈ s.received, packet.encoded.timestamp = rtpTimestamp →
      ∀ captured, s.captured[packet.frame]? = some captured →
        Faithful (rtpTimestamp ∈ s.receiver.transformer.recvMapOrder) packet.embedded
          captured.metadata
  | _ => True

/-! ## A condition on what is captured -/

/-- A frame with a user timestamp, which is not the largest, and no frame id 0. -/
def FrameMetadata.Plain (metadata : FrameMetadata) : Prop :=
  metadata.userTimestamp ≠ none ∧ metadata.userTimestamp ≠ some uint64Max ∧
    metadata.frameId ≠ some 0

/-- No other frame with metadata has been captured in the millisecond of a frame. -/
def Alone (s : State) (i : ℕ) (captured : Captured) : Prop :=
  ∀ (j : ℕ) other, s.captured[j]? = some other → j ≠ i → other.metadata ≠ none →
    captureTime other.timestampUs ≠ captureTime captured.timestampUs

/-- Frames with plain metadata, alone in their milliseconds, are encoded and looked up before 300
more have been captured and received. -/
def Usual (s : State) (a : Action) (_ : State) : Prop :=
  match a with
  | .transformSend i _ => ∀ captured, s.captured[i]? = some captured →
      (∃ metadata, captured.metadata = some metadata ∧ metadata.Plain) ∧ Alone s i captured ∧
        s.captured.length < i + 1 + kMaxSendMapEntries
  | .onFrame rtpTimestamp => ∀ (i : ℕ) packet, s.received[i]? = some packet →
      packet.encoded.timestamp = rtpTimestamp → s.received.length < i + 1 + kMaxRecvMapEntries
  | _ => True

end LiveKit.PacketTrailer
