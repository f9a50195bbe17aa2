import LiveKit.DataTrack.Packet.Basic
import Mathlib.Algebra.Order.Floor.Div

/-!
# Serializing packets

`packet/serialize.rs`. A header is written into a buffer of limited room; running out of it
is a `SerializeError`, while the `put_*` operations themselves, the `unwrap` and the
assertions of the source are panics. `Packet.serialize_eq` shows that none of them happens:
every packet serializes, to its header bytes followed by its payload.
-/

namespace LiveKit.DataTrack

open Header Extensions Consts BufMut BigEndian

inductive SerializeError where
  | tooSmallForHeader
  | tooSmallForPayload

/-! ## Lengths -/

/-- Length of extensions excluding padding. -/
def Extensions.serializedLen (ext : Extensions) : ℕ :=
  (if ext.e2ee.isSome then EXT_MARKER_LEN + E2eeExt.LEN else 0) +
    (if ext.userTimestamp.isSome then EXT_MARKER_LEN + UserTimestampExt.LEN else 0)

structure HeaderMetrics where
  extLen : ℕ
  extWords : ℕ
  paddingLen : ℕ

def HeaderMetrics.serializedLen (m : HeaderMetrics) : ℕ :=
  if m.extLen > 0 then BASE_HEADER_LEN + (EXT_WORDS_INDICATOR_SIZE + m.extLen + m.paddingLen)
  else BASE_HEADER_LEN

/-- Lengths of individual elements in the serialized header. -/
def Header.metrics (h : Header) : HeaderMetrics :=
  let extLen := h.extensions.serializedLen
  let extWords := (EXT_WORDS_INDICATOR_SIZE + extLen) ⌈/⌉ 4
  let paddingLen := extWords * 4 - EXT_WORDS_INDICATOR_SIZE - extLen
  ⟨extLen, extWords, paddingLen⟩

/-- Length of the serialized header in bytes. -/
def Header.serializedLen (h : Header) : ℕ := h.metrics.serializedLen

/-- Length of the serialized packet in bytes. -/
def Packet.serializedLen (p : Packet) : ℕ := p.header.serializedLen + p.payload.length

/-! ## Writing -/

def E2eeExt.serializeInto (ext : E2eeExt) (buf : BufMut) : Fallible SerializeError BufMut := do
  let buf ← putU8 E2eeExt.TAG buf
  let buf ← putU8 (UInt8.ofNat E2eeExt.LEN) buf
  let buf ← putU8 ext.keyIndex buf
  putSlice ext.iv.toList buf

def UserTimestampExt.serializeInto (ext : UserTimestampExt) (buf : BufMut) :
    Fallible SerializeError BufMut := do
  let buf ← putU8 UserTimestampExt.TAG buf
  let buf ← putU8 (UInt8.ofNat UserTimestampExt.LEN) buf
  putU64 ext.value buf

def Extensions.serializeInto (ext : Extensions) (buf : BufMut) :
    Fallible SerializeError BufMut := do
  let buf ← match ext.e2ee with
    | some e2ee => e2ee.serializeInto buf
    | none => pure buf
  match ext.userTimestamp with
  | some userTimestamp => userTimestamp.serializeInto buf
  | none => pure buf

/-- The two frame-marker bits of the first byte. -/
def FrameMarker.bits : FrameMarker → UInt8
  | .single => FRAME_MARKER_SINGLE
  | .start => FRAME_MARKER_START
  | .inter => FRAME_MARKER_INTER
  | .final => FRAME_MARKER_FINAL

/-- The first byte: version, frame marker, extension flag. -/
def FrameMarker.initial (marker : FrameMarker) (extFlag : Bool) : UInt8 :=
  let initial := SUPPORTED_VERSION <<< VERSION_SHIFT
  let initial := initial ||| marker.bits <<< FRAME_MARKER_SHIFT
  if extFlag then initial ||| 1 <<< EXT_FLAG_SHIFT else initial

/-- The extension block, present only when there is an extension. -/
def Header.serializeExtInto (h : Header) (buf : BufMut) : Fallible SerializeError BufMut :=
  if h.metrics.extLen > 0 then do
    -- extension words are encoded as count - 1
    let buf ← putU16 (UInt16.ofNat (h.metrics.extWords - 1)) buf
    let buf ← h.extensions.serializeInto buf
    putBytes 0 h.metrics.paddingLen buf
  else pure buf

def Header.serializeInto (h : Header) (buf : BufMut) : Fallible SerializeError (ℕ × BufMut) := do
  let metrics := h.metrics
  let serializedLen := metrics.serializedLen
  let remainingInitial := buf.remainingMut
  if buf.remainingMut < serializedLen then throw (.error .tooSmallForHeader)
  let buf ← putU8 (h.marker.initial (metrics.extLen > 0)) buf
  let buf ← putU8 0 buf -- Reserved
  let buf ← putU16 h.trackHandle.value buf
  let buf ← putU16 h.sequence buf
  let buf ← putU16 h.frameNumber buf
  let buf ← putU32 h.timestamp.ticks buf
  let buf ← h.serializeExtInto buf
  if remainingInitial - buf.remainingMut ≠ serializedLen then throw .panic
  return (serializedLen, buf)

def Packet.serializeInto (p : Packet) (buf : BufMut) : Fallible SerializeError (ℕ × BufMut) := do
  let payloadLen := p.payload.length
  let (headerLen, buf) ← p.header.serializeInto buf
  if buf.remainingMut < payloadLen then throw (.error .tooSmallForPayload)
  let buf ← putSlice p.payload buf
  return (headerLen + payloadLen, buf)

/-- Serialize the packet into a new buffer of exactly its length; the `unwrap` and the
assertion on the number of bytes written are the panics. -/
def Packet.serialize (p : Packet) : Fallible Empty Bytes :=
  let len := p.serializedLen
  match p.serializeInto (withCapacity len) with
  | .error _ => .error .panic
  | .ok (written, buf) => if written ≠ len then .error .panic else .ok buf.written

/-! ## The bytes written -/

/-- The bytes after the tag and the length. -/
def E2eeExt.body (ext : E2eeExt) : List.Vector UInt8 E2eeExt.LEN := ext.keyIndex ::ᵥ ext.iv

def UserTimestampExt.body (ext : UserTimestampExt) : List.Vector UInt8 UserTimestampExt.LEN :=
  ⟨toBe 8 ext.value.toNat, length_toBe 8 _⟩

def E2eeExt.bytes (ext : E2eeExt) : Bytes :=
  E2eeExt.TAG :: UInt8.ofNat E2eeExt.LEN :: ext.body.toList

def UserTimestampExt.bytes (ext : UserTimestampExt) : Bytes :=
  UserTimestampExt.TAG :: UInt8.ofNat UserTimestampExt.LEN :: ext.body.toList

/-- The extension elements, end-to-end encryption first. -/
def Extensions.bytes (ext : Extensions) : Bytes :=
  (ext.e2ee.elim [] E2eeExt.bytes) ++ (ext.userTimestamp.elim [] UserTimestampExt.bytes)

/-- The extension block that follows the base header: word count, elements, padding. -/
def Header.extBlock (h : Header) : Bytes :=
  if h.metrics.extLen > 0 then
    toBe 2 (UInt16.ofNat (h.metrics.extWords - 1)).toNat ++
      (h.extensions.bytes ++ List.replicate h.metrics.paddingLen 0)
  else []

/-- The serialized header. -/
def Header.bytes (h : Header) : Bytes :=
  h.marker.initial (h.metrics.extLen > 0) :: 0 ::
    (toBe 2 h.trackHandle.value.toNat ++ (toBe 2 h.sequence.toNat ++
      (toBe 2 h.frameNumber.toNat ++ (toBe 4 h.timestamp.ticks.toNat ++ h.extBlock))))

@[simp] theorem E2eeExt.length_bytes (ext : E2eeExt) : ext.bytes.length = 15 := by
  rw [E2eeExt.bytes, List.length_cons, List.length_cons, List.Vector.toList_length]
  rfl

@[simp] theorem UserTimestampExt.length_bytes (ext : UserTimestampExt) :
    ext.bytes.length = 10 := by
  rw [UserTimestampExt.bytes, List.length_cons, List.length_cons, List.Vector.toList_length]
  rfl

theorem Extensions.length_bytes (ext : Extensions) : ext.bytes.length = ext.serializedLen := by
  obtain ⟨_ | ts, _ | e2ee⟩ := ext <;>
    simp [bytes, serializedLen, EXT_MARKER_LEN, E2eeExt.LEN,
      UserTimestampExt.LEN]

/-- There are four possible extension sets, hence four possible lengths. -/
theorem Extensions.serializedLen_cases (ext : Extensions) :
    ext.serializedLen = 0 ∨ ext.serializedLen = 10 ∨ ext.serializedLen = 15 ∨
      ext.serializedLen = 25 := by
  obtain ⟨_ | ts, _ | e2ee⟩ := ext <;>
    simp [serializedLen, EXT_MARKER_LEN, E2eeExt.LEN, UserTimestampExt.LEN]

theorem Extensions.serializedLen_le (ext : Extensions) : ext.serializedLen ≤ 25 := by
  rcases ext.serializedLen_cases with h | h | h | h <;> omega

theorem Extensions.eq_default_of_serializedLen {ext : Extensions} (h : ext.serializedLen = 0) :
    ext = Extensions.default := by
  obtain ⟨_ | ts, _ | e2ee⟩ := ext <;>
    simp_all [serializedLen, Extensions.default, EXT_MARKER_LEN, E2eeExt.LEN,
      UserTimestampExt.LEN]

/-- With its length field, elements and padding the block fills whole 4-byte words. -/
theorem Header.metrics_words (h : Header) :
    EXT_WORDS_INDICATOR_SIZE + h.metrics.extLen + h.metrics.paddingLen
      = 4 * h.metrics.extWords ∧ 1 ≤ h.metrics.extWords ∧ h.metrics.extWords ≤ 7 := by
  have hle := h.extensions.serializedLen_le
  simp only [metrics, EXT_WORDS_INDICATOR_SIZE, Nat.ceilDiv_eq_add_pred_div]
  omega

theorem Header.length_bytes (h : Header) : h.bytes.length = h.serializedLen := by
  simp only [bytes, extBlock, serializedLen, HeaderMetrics.serializedLen,
    BASE_HEADER_LEN, EXT_WORDS_INDICATOR_SIZE]
  split <;> simp [Extensions.length_bytes, metrics]
  omega

/-- The longest header has both extensions. -/
theorem Header.serializedLen_le (h : Header) : h.serializedLen ≤ 40 := by
  obtain ⟨hwords, -, hle⟩ := h.metrics_words
  unfold serializedLen HeaderMetrics.serializedLen
  simp only [BASE_HEADER_LEN]
  split
  · omega
  · omega

/-! ## Serialization never fails -/

variable {buf : BufMut}

theorem E2eeExt.serializeInto_eq (ext : E2eeExt) (h : 15 ≤ buf.remainingMut) :
    ext.serializeInto buf = .ok (buf.append ext.bytes) := by
  unfold E2eeExt.serializeInto putU8
  rw [putSlice_bind _ (by simp; omega), putSlice_bind _ (by simp; omega),
    putSlice_bind _ (by simp; omega), putSlice_of_le (by simp; omega)]
  simp only [append_append]
  rfl

theorem UserTimestampExt.serializeInto_eq (ext : UserTimestampExt) (h : 10 ≤ buf.remainingMut) :
    ext.serializeInto buf = .ok (buf.append ext.bytes) := by
  unfold UserTimestampExt.serializeInto putU8 putU64
  rw [putSlice_bind _ (by simp; omega), putSlice_bind _ (by simp; omega),
    putSlice_of_le (by simp; omega)]
  simp only [append_append]
  rfl

theorem Extensions.serializeInto_eq (ext : Extensions) (h : ext.serializedLen ≤ buf.remainingMut) :
    ext.serializeInto buf = .ok (buf.append ext.bytes) := by
  obtain ⟨_ | ts, _ | e2ee⟩ := ext <;> unfold serializeInto
  · simp [bytes]
  · simp [serializedLen, EXT_MARKER_LEN, E2eeExt.LEN] at h
    simp [bytes, E2eeExt.serializeInto_eq e2ee h]
  · simp [serializedLen, EXT_MARKER_LEN, UserTimestampExt.LEN] at h
    simp [bytes, UserTimestampExt.serializeInto_eq ts h]
  · simp [serializedLen, EXT_MARKER_LEN, E2eeExt.LEN, UserTimestampExt.LEN] at h
    have he2ee : 15 ≤ buf.remainingMut := by omega
    have hts : 10 ≤ (buf.append e2ee.bytes).remainingMut := by
      rw [remainingMut_append, E2eeExt.length_bytes]
      omega
    simp [bytes, E2eeExt.serializeInto_eq e2ee he2ee,
      UserTimestampExt.serializeInto_eq ts hts]

theorem Header.serializeExtInto_eq (h : Header) (hroom : h.extBlock.length ≤ buf.remainingMut) :
    h.serializeExtInto buf = .ok (buf.append h.extBlock) := by
  unfold serializeExtInto
  by_cases hext : h.metrics.extLen > 0
  · have hblock : h.extBlock = toBe 2 (UInt16.ofNat (h.metrics.extWords - 1)).toNat ++
        (h.extensions.bytes ++ List.replicate h.metrics.paddingLen 0) := if_pos hext
    have hlen : 2 + (h.extensions.serializedLen + h.metrics.paddingLen) ≤ buf.remainingMut := by
      rw [hblock, List.length_append, List.length_append, length_toBe, List.length_replicate,
        Extensions.length_bytes] at hroom
      exact hroom
    rw [if_pos hext, hblock]
    unfold putU16 putBytes
    rw [putSlice_bind _ (by rw [length_toBe]; omega),
      serializeInto_eq _ (by rw [remainingMut_append, length_toBe]; omega),
      Fallible.ok_bind, putSlice_of_le (by
        rw [append_append, remainingMut_append, List.length_append, length_toBe,
          List.length_replicate, Extensions.length_bytes]
        omega)]
    simp only [append_append, List.append_assoc]
  · have hblock : h.extBlock = [] := if_neg hext
    rw [if_neg hext, hblock, append_nil]
    rfl

/-- In a buffer with room for it a header is written in full. -/
theorem Header.serializeInto_eq (h : Header) (hroom : h.serializedLen ≤ buf.remainingMut) :
    h.serializeInto buf = .ok (h.serializedLen, buf.append h.bytes) := by
  have hlen : h.bytes.length = h.serializedLen := h.length_bytes
  have hblock : 12 + h.extBlock.length = h.serializedLen := by
    rw [← hlen, bytes]
    simp only [List.length_cons, List.length_append, length_toBe]
    omega
  have hwritten : buf.remainingMut - (buf.append h.bytes).remainingMut
      = h.metrics.serializedLen := by
    show _ = h.serializedLen
    rw [remainingMut_append, hlen]
    omega
  have hfits : ¬ buf.remainingMut < h.metrics.serializedLen := Nat.not_lt.mpr hroom
  unfold serializeInto putU8 putU16 putU32
  simp only [if_neg hfits, Fallible.pure_eq_ok]
  -- six fixed-size fields, then the extension block
  rw [putSlice_bind _ (by simp; omega), putSlice_bind _ (by simp; omega),
    putSlice_bind _ (by simp; omega), putSlice_bind _ (by simp; omega),
    putSlice_bind _ (by simp; omega), putSlice_bind _ (by simp; omega),
    serializeExtInto_eq h (by simp; omega), Fallible.ok_bind]
  simp only [append_append, List.append_assoc, List.cons_append, List.nil_append]
  show (if buf.remainingMut - (buf.append h.bytes).remainingMut ≠ h.metrics.serializedLen
    then _ else _) = _
  rw [if_neg (not_not.mpr hwritten)]
  rfl

/-- Every packet serializes, to its header followed by its payload. -/
theorem Packet.serialize_eq (p : Packet) :
    p.serialize = .ok (p.header.bytes ++ p.payload) := by
  have hheader : p.header.serializedLen ≤ (withCapacity p.serializedLen).remainingMut :=
    Nat.le_add_right _ _
  have hpayload : p.payload.length
      ≤ ((withCapacity p.serializedLen).append p.header.bytes).remainingMut := by
    rw [remainingMut_append, Header.length_bytes]
    show _ ≤ p.header.serializedLen + p.payload.length - _
    omega
  have hinto : p.serializeInto (withCapacity p.serializedLen) = .ok (p.serializedLen,
      (withCapacity p.serializedLen).append (p.header.bytes ++ p.payload)) := by
    unfold Packet.serializeInto
    rw [serializeInto_eq p.header hheader, Fallible.ok_bind]
    simp only [if_neg (Nat.not_lt.mpr hpayload), Fallible.pure_eq_ok]
    rw [putSlice_bind _ hpayload, append_append]
    rfl
  unfold Packet.serialize
  simp only [hinto]
  rw [if_neg (not_not.mpr rfl)]
  rfl

end LiveKit.DataTrack
