import LiveKit.Lib.EvictingMap
import LiveKit.PacketTrailer.Receive

/-!
# From the capture to the video stream

What `capture_frame` and `on_captured_frame` store for a frame, what `TransformSend` embeds, and
what the observer of a video track looks up for a decoded frame.
-/

namespace LiveKit.PacketTrailer

/-- What a video frame carries. -/
structure FrameMetadata where
  userTimestamp : Option UInt64
  frameId : Option UInt32
deriving DecidableEq

/-! ## Capturing -/

/-- The `FrameMetadata` that is passed on with a captured frame. -/
structure CapturedMetadata where
  hasPacketTrailer : Bool
  userTimestamp : UInt64
  frameId : UInt32

/-- `NativeVideoSource::capture_frame`: what is absent is 0. -/
def captureFrame : Option FrameMetadata → CapturedMetadata
  | some metadata => ⟨true, metadata.userTimestamp.getD 0, metadata.frameId.getD 0⟩
  | none => ⟨false, 0, 0⟩

def kMaxSendMapEntries : ℕ := 300

/-- The send side of a `PacketTrailerTransformer`. -/
structure SendTransformer where
  sendMap : AssocMap Int PacketTrailerMetadata
  sendMapOrder : List Int

namespace SendTransformer

/-- The key is in whole milliseconds. -/
def storeFrameMetadata (t : SendTransformer) (captureTimestampUs : Int) (userTimestamp : UInt64)
    (frameId : UInt32) : SendTransformer :=
  let key := captureTimestampUs.tdiv 1000 * 1000
  let (sendMap, sendMapOrder) :=
    EvictingMap.store kMaxSendMapEntries t.sendMap t.sendMapOrder key ⟨userTimestamp, frameId, 0⟩
  { sendMap, sendMapOrder }

/-- `on_captured_frame`, for an aligned timestamp. -/
def onCapturedFrame (t : SendTransformer) (alignedTimestampUs : Int)
    (frameMetadata : CapturedMetadata) : SendTransformer :=
  if frameMetadata.hasPacketTrailer then
    t.storeFrameMetadata alignedTimestampUs frameMetadata.userTimestamp frameMetadata.frameId
  else t

/-! ## Sending -/

/-- What is known of the capture time, and zeros for what is not. -/
def metaToEmbed (t : SendTransformer) (captureUs : Int) : PacketTrailerMetadata :=
  (AList.lookup captureUs t.sendMap).getD ⟨0, 0, 0⟩

def transformSend (t : SendTransformer) (captureUs : Int) (frame : Frame) : Frame :=
  let metaToEmbed := t.metaToEmbed captureUs
  { frame with data := appendTrailer frame.data metaToEmbed.userTimestamp metaToEmbed.frameId }

end SendTransformer

/-- `CaptureTime()` of an encoded frame, which is in whole milliseconds. -/
def captureTime (timestampUs : Int) : Int := timestampUs.tdiv 1000 * 1000

/-! ## Looking up -/

variable {κ : Type}

/-- What is found is taken out. -/
def Transformer.lookupFrameMetadata (t : Transformer κ) (rtpTimestamp : UInt32) :
    Option PacketTrailerMetadata × Transformer κ :=
  match AList.lookup rtpTimestamp t.recvMap with
  | none => (none, t)
  | some metadata =>
    (some metadata,
      { t with
        recvMap := AList.erase rtpTimestamp t.recvMap
        recvMapOrder := t.recvMapOrder.erase rtpTimestamp })

structure PacketTrailerHandler (κ : Type) where
  transformer : Transformer κ
  lastFrameId : UInt32

def uint64Max : UInt64 := 0xFFFFFFFFFFFFFFFF

namespace PacketTrailerHandler

def lookupTimestamp (h : PacketTrailerHandler κ) (rtpTimestamp : UInt32) :
    UInt64 × PacketTrailerHandler κ :=
  match h.transformer.lookupFrameMetadata rtpTimestamp with
  | (some metadata, transformer) => (metadata.userTimestamp, ⟨transformer, metadata.frameId⟩)
  | (none, transformer) => (uint64Max, { h with transformer })

def lookupFrameMetadata (h : PacketTrailerHandler κ) (rtpTimestamp : UInt32) :
    Option (UInt64 × UInt32) × PacketTrailerHandler κ :=
  let (ts, h) := h.lookupTimestamp rtpTimestamp
  (if ts ≠ uint64Max then some (ts, h.lastFrameId) else none, h)

/-- `VideoTrackObserver::on_frame`, as far as the metadata of the frame goes. -/
def onFrame (h : PacketTrailerHandler κ) (rtpTimestamp : UInt32) :
    Option FrameMetadata × PacketTrailerHandler κ :=
  let (found, h) := h.lookupFrameMetadata rtpTimestamp
  (found.map fun (ts, fid) => ⟨some ts, if fid ≠ 0 then some fid else none⟩, h)

end PacketTrailerHandler

/-! ## What is attached -/

/-- What the observer makes of an entry. -/
def PacketTrailerMetadata.attached (metadata : PacketTrailerMetadata) : Option FrameMetadata :=
  if metadata.userTimestamp = uint64Max then none
  else some ⟨some metadata.userTimestamp,
    if metadata.frameId = 0 then none else some metadata.frameId⟩

theorem onFrame_fst (h : PacketTrailerHandler κ) (rtpTimestamp : UInt32) :
    (h.onFrame rtpTimestamp).1 =
      (AList.lookup rtpTimestamp h.transformer.recvMap).bind PacketTrailerMetadata.attached := by
  unfold PacketTrailerHandler.onFrame PacketTrailerHandler.lookupFrameMetadata
    PacketTrailerHandler.lookupTimestamp Transformer.lookupFrameMetadata
  cases hlookup : AList.lookup rtpTimestamp h.transformer.recvMap with
  | none => rfl
  | some metadata =>
    show Option.map _ (if metadata.userTimestamp ≠ uint64Max then _ else _) = metadata.attached
    unfold PacketTrailerMetadata.attached
    by_cases hmax : metadata.userTimestamp = uint64Max
    · rw [if_neg (not_not_intro hmax), if_pos hmax]
      rfl
    · rw [if_pos hmax, if_neg hmax]
      by_cases hzero : metadata.frameId = 0
      · simp [hzero]
      · simp [hzero]

/-- The entry is gone after the lookup. -/
theorem onFrame_snd (h : PacketTrailerHandler κ) (rtpTimestamp : UInt32)
    (hordered : EvictingMap.Ordered h.transformer.recvMap h.transformer.recvMapOrder) :
    (h.onFrame rtpTimestamp).2.transformer =
      { h.transformer with
        recvMap := AList.erase rtpTimestamp h.transformer.recvMap
        recvMapOrder := h.transformer.recvMapOrder.erase rtpTimestamp } := by
  show (h.lookupTimestamp rtpTimestamp).2.transformer = _
  unfold PacketTrailerHandler.lookupTimestamp Transformer.lookupFrameMetadata
  cases hlookup : AList.lookup rtpTimestamp h.transformer.recvMap with
  | none =>
    have hnot : rtpTimestamp ∉ h.transformer.recvMapOrder := by
      rw [hordered.mem_iff, hlookup]
      exact Bool.false_ne_true
    have hmap : AList.erase rtpTimestamp h.transformer.recvMap = h.transformer.recvMap := by
      apply AList.ext
      apply List.kerase_of_notMem_keys
      exact mt AList.mem_keys.mpr (AList.lookup_eq_none.mp hlookup)
    rw [hmap, List.erase_of_not_mem hnot]
  | some metadata => rfl

/-- What is not evicted stays the same, and a received frame is stored as in any map of limited
capacity. -/
theorem evictOldest_eq (map : AssocMap UInt32 PacketTrailerMetadata) (order : List UInt32) :
    evictOldest map order = EvictingMap.evict kMaxRecvMapEntries map order := by
  induction order generalizing map with
  | nil => rfl
  | cons rtp order ih =>
    unfold evictOldest EvictingMap.evict
    split
    · exact ih _
    · rfl

/-- Without a switch to another layer, for a timestamp that is new. -/
theorem storeReceived_eq (t : Transformer κ) (rtpTimestamp : UInt32)
    (metadata : PacketTrailerMetadata)
    (hssrc : t.recvActiveSsrc = 0 ∨ t.recvActiveSsrc = metadata.ssrc)
    (hordered : EvictingMap.Ordered t.recvMap t.recvMapOrder)
    (hnew : AList.lookup rtpTimestamp t.recvMap = none) :
    t.storeReceived rtpTimestamp metadata =
      { t with
        recvMap := (EvictingMap.store kMaxRecvMapEntries t.recvMap t.recvMapOrder rtpTimestamp
          metadata).1
        recvMapOrder := (EvictingMap.store kMaxRecvMapEntries t.recvMap t.recvMapOrder rtpTimestamp
          metadata).2
        recvActiveSsrc := metadata.ssrc } := by
  have hswitch : ¬ (t.recvActiveSsrc ≠ 0 ∧ t.recvActiveSsrc ≠ metadata.ssrc) := by
    rintro ⟨h₁, h₂⟩
    exact hssrc.elim h₁ h₂
  rw [(EvictingMap.store_new _ _ hordered hnew).1]
  unfold Transformer.storeReceived
  simp only [if_neg hswitch, hnew, Option.isSome_none, if_neg Bool.false_ne_true, evictOldest_eq]
  rfl

end LiveKit.PacketTrailer
