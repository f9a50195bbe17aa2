import LiveKit.Lib.AssocMap
import LiveKit.PacketTrailer.Format

/-!
# Receiving frames with a trailer

`TransformReceive` of `packet_trailer.cpp`: the trailer is taken off an encoded frame, what it
says is kept under the frame's RTP timestamp, and the frame is passed on.
-/

namespace LiveKit.PacketTrailer

variable {κ : Type}

def kMaxRecvMapEntries : ℕ := 300

/-- An encoded frame, as far as the transformer looks at it. -/
structure Frame where
  ssrc : UInt32
  timestamp : UInt32
  data : List UInt8

/-- The receive side of a `PacketTrailerTransformer`; `κ` are its callbacks. -/
structure Transformer (κ : Type) where
  callback : Option κ
  sinkCallbacks : AssocMap UInt32 (Option κ)
  recvMap : AssocMap UInt32 PacketTrailerMetadata
  recvMapOrder : List UInt32
  recvActiveSsrc : UInt32

/-- The pass over the order that drops the entries of other layers. -/
def flushStale (ssrc : UInt32) (map : AssocMap UInt32 PacketTrailerMetadata) :
    List UInt32 → AssocMap UInt32 PacketTrailerMetadata × List UInt32
  | [] => (map, [])
  | rtp :: order =>
    match AList.lookup rtp map with
    | some metadata =>
      if metadata.ssrc ≠ ssrc then flushStale ssrc (AList.erase rtp map) order
      else
        let (map, order) := flushStale ssrc map order
        (map, rtp :: order)
    | none =>
      let (map, order) := flushStale ssrc map order
      (map, rtp :: order)

/-- Evict the oldest entries while the map is at capacity. -/
def evictOldest (map : AssocMap UInt32 PacketTrailerMetadata) :
    List UInt32 → AssocMap UInt32 PacketTrailerMetadata × List UInt32
  | [] => (map, [])
  | evictedRtp :: order =>
    if AssocMap.size map ≥ kMaxRecvMapEntries then evictOldest (AList.erase evictedRtp map) order
    else (map, evictedRtp :: order)

/-- Keep what a trailer said, under the lock of the receive map. -/
def Transformer.storeReceived (t : Transformer κ) (rtpTimestamp : UInt32)
    (metadata : PacketTrailerMetadata) : Transformer κ :=
  let ssrc := metadata.ssrc
  -- a change of the SSRC is a switch to another simulcast layer
  let (map, order) :=
    if t.recvActiveSsrc ≠ 0 ∧ t.recvActiveSsrc ≠ ssrc then flushStale ssrc t.recvMap t.recvMapOrder
    else (t.recvMap, t.recvMapOrder)
  let collision := (AList.lookup rtpTimestamp map).isSome
  let (map, order) := evictOldest map order
  let order := if collision then order else order ++ [rtpTimestamp]
  { t with
    recvMap := AList.insert rtpTimestamp metadata map
    recvMapOrder := order
    recvActiveSsrc := ssrc }

/-- The callback a frame goes to: the one of its SSRC or the global one. -/
def Transformer.callbackFor (t : Transformer κ) (ssrc : UInt32) : Option κ :=
  match AList.lookup ssrc t.sinkCallbacks with
  | some cb => cb
  | none => t.callback

/-- The transformer and the frame after the extraction: only a frame with metadata gets the
stripped data. -/
def Transformer.extracted (t : Transformer κ) (frame : Frame) (strippedData : List UInt8) :
    Option PacketTrailerMetadata → Transformer κ × Frame
  | some metadata =>
    (t.storeReceived frame.timestamp { metadata with ssrc := frame.ssrc },
      { frame with data := strippedData })
  | none => (t, frame)

/-- The transformer after a frame, and the callback the frame is handed to. The outer `none` is
a read outside of the frame. -/
def Transformer.transformReceive (t : Transformer κ) (frame : Frame) :
    Option (Transformer κ × Option (κ × Frame)) := do
  let (metadata, strippedData) ← extractTrailer frame.data
  let (t, frame) := t.extracted frame strippedData metadata
  return (t, (t.callbackFor frame.ssrc).map fun cb => (cb, frame))

/-- A frame without metadata is passed on as it came, and nothing is kept of it. -/
theorem transformReceive_of_none (t : Transformer κ) (frame : Frame) {out : List UInt8}
    (h : extractTrailer frame.data = some (none, out)) :
    t.transformReceive frame =
      some (t, (t.callbackFor frame.ssrc).map fun cb => (cb, frame)) := by
  unfold Transformer.transformReceive
  rw [h]
  rfl

/-- What is appended is extracted again; on any bytes the extraction stays inside the buffer
and cuts off nothing or what the trailer announces; a frame without metadata is passed on as it
came. -/
theorem trailer_roundTrip_and_safe (t : Transformer κ) (payload : List UInt8)
    (userTimestamp : UInt64) (frameId : UInt32) (frame : Frame) :
    extractTrailer (appendTrailer payload userTimestamp frameId) =
        some (some ⟨userTimestamp, frameId, 0⟩, payload) ∧
      ∃ metadata out, extractTrailer frame.data = some (metadata, out) ∧
        (out = frame.data ∨
          ∃ tail, frame.data = out ++ tail ∧ announcedLen frame.data = some tail.length) ∧
        (metadata = none →
          t.transformReceive frame =
            some (t, (t.callbackFor frame.ssrc).map fun cb => (cb, frame))) := by
  refine ⟨extractTrailer_appendTrailer payload userTimestamp frameId, ?_⟩
  obtain ⟨metadata, out, hextract, hout⟩ := extractTrailer_safe frame.data
  refine ⟨metadata, out, hextract, hout, ?_⟩
  intro hnone
  rw [hnone] at hextract
  exact transformReceive_of_none t frame hextract

end LiveKit.PacketTrailer
