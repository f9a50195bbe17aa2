import LiveKit.Lib.TransitionSystem
import LiveKit.PacketTrailer.Send

/-!
# The maps of the metadata

A map and the order of its keys are kept in step by hand: `recv_map_` through frames, lookups and
switches of the layer, `send_map_` through what is captured.
-/

namespace LiveKit.PacketTrailer.MetadataMaps

open EvictingMap TransitionSystem

variable {κ : Type}

/-- The metadata of a frame, if it has a trailer with metadata. -/
def metadataOf (frame : Frame) : Option PacketTrailerMetadata :=
  (extractTrailer frame.data).bind Prod.fst

/-- The receive map and its order once the entries of other layers are flushed. -/
def keptFor (t : Transformer κ) (ssrc : UInt32) :
    AssocMap UInt32 PacketTrailerMetadata × List UInt32 :=
  if t.recvActiveSsrc ≠ 0 ∧ t.recvActiveSsrc ≠ ssrc then flushStale ssrc t.recvMap t.recvMapOrder
  else (t.recvMap, t.recvMapOrder)

/-! ## Runs -/

/-- The two sides of a `PacketTrailerTransformer`. -/
structure State (κ : Type) where
  recv : Transformer κ
  send : SendTransformer

def State.new (callback : Option κ) (sinkCallbacks : AssocMap UInt32 (Option κ)) : State κ where
  recv := ⟨callback, sinkCallbacks, ∅, [], 0⟩
  send := ⟨∅, []⟩

inductive Action where
  | transformReceive (frame : Frame)
  | lookupFrameMetadata (rtpTimestamp : UInt32)
  | storeFrameMetadata (captureTimestampUs : Int) (userTimestamp : UInt64) (frameId : UInt32)

def step (s : State κ) : Action → Option (State κ)
  | .transformReceive frame => do
    let (recv, _) ← s.recv.transformReceive frame
    return { s with recv }
  | .lookupFrameMetadata rtpTimestamp =>
    some { s with recv := (s.recv.lookupFrameMetadata rtpTimestamp).2 }
  | .storeFrameMetadata captureTimestampUs userTimestamp frameId =>
    some { s with send := s.send.storeFrameMetadata captureTimestampUs userTimestamp frameId }

inductive Event where
  /-- A frame with metadata. -/
  | received (ssrc : UInt32)
  /-- A key that was not in `recv_map_` when its metadata was put there. -/
  | recvInserted (rtpTimestamp : UInt32)
  /-- The same for `send_map_`. -/
  | sendInserted (key : Int)

def events (s : State κ) : Action → List Event
  | .transformReceive frame =>
    match metadataOf frame with
    | some _ =>
      let (map, order) := keptFor s.recv frame.ssrc
      .received frame.ssrc ::
        if fresh kMaxRecvMapEntries map order frame.timestamp then [.recvInserted frame.timestamp]
        else []
    | none => []
  | .lookupFrameMetadata _ => []
  | .storeFrameMetadata captureTimestampUs _ _ =>
    let key := captureTime captureTimestampUs
    if fresh kMaxSendMapEntries s.send.sendMap s.send.sendMapOrder key then [.sendInserted key]
    else []

def received (record : List Event) : List UInt32 :=
  record.filterMap fun
    | .received ssrc => some ssrc
    | _ => none

def recvInserted (record : List Event) : List UInt32 :=
  record.filterMap fun
    | .recvInserted rtpTimestamp => some rtpTimestamp
    | _ => none

def sendInserted (record : List Event) : List Int :=
  record.filterMap fun
    | .sendInserted key => some key
    | _ => none

/-! ## What is promised -/

/-- Each order has the keys of its map, one time each and as they were inserted; a map has 300
entries at most; and what is in the receive map is of the layer of the last frame. -/
structure Consistent (record : List Event) (s : State κ) : Prop where
  recvOrdered : Ordered s.recv.recvMap s.recv.recvMapOrder
  recvInOrder : InOrder (recvInserted record) s.recv.recvMapOrder
  recvSize : AssocMap.size s.recv.recvMap ≤ kMaxRecvMapEntries
  oneLayer : ∀ ssrc, (received record).getLast? = some ssrc → ∀ rtpTimestamp metadata,
    AList.lookup rtpTimestamp s.recv.recvMap = some metadata → metadata.ssrc = ssrc
  lookedUp : ∀ ssrc, (received record).getLast? = some ssrc → ∀ rtpTimestamp metadata,
    (s.recv.lookupFrameMetadata rtpTimestamp).1 = some metadata → metadata.ssrc = ssrc
  sendOrdered : Ordered s.send.sendMap s.send.sendMapOrder
  sendInOrder : InOrder (sendInserted record) s.send.sendMapOrder
  sendSize : AssocMap.size s.send.sendMap ≤ kMaxSendMapEntries

/-- A frame with the timestamp of the oldest entry finds the map with room, unless it is flushed. -/
def NotEvicted (t : Transformer κ) (frame : Frame) : Prop :=
  t.recvActiveSsrc = 0 ∨ t.recvActiveSsrc = frame.ssrc →
    t.recvMapOrder.head? = some frame.timestamp → AssocMap.size t.recvMap < kMaxRecvMapEntries

/-- No entry of the SSRC 0, other than one that is replaced, is there when another SSRC comes. -/
def NotMixed (t : Transformer κ) (frame : Frame) : Prop :=
  t.recvActiveSsrc = 0 → frame.ssrc ≠ 0 →
    ∀ rtpTimestamp ∈ t.recvMapOrder, rtpTimestamp = frame.timestamp

def Harmless (s : State κ) (a : Action) (_ : State κ) : Prop :=
  match a with
  | .transformReceive frame =>
    metadataOf frame ≠ none → NotEvicted s.recv frame ∧ NotMixed s.recv frame
  | _ => True

end LiveKit.PacketTrailer.MetadataMaps
