import LiveKit.Lib.ByteBuf

/-!
# Data-track packets

The data model of `packet/`: track handles and their allocator, the media clock, the two
header extensions, and the packet itself, with the constants of the wire format (v0).

A `Handle` carries the proof that it is not the reserved value zero, so the two fallible
conversions below are the only way to obtain one from a wire integer.
-/

namespace LiveKit.DataTrack

/-- The contents of a `bytes::Bytes`. -/
abbrev Bytes := List UInt8

/-! ## Track handles -/

/-- Value identifying which data track a packet belongs to. -/
structure Handle where
  value : UInt16
  ne_zero : value ≠ 0
deriving DecidableEq

theorem Handle.one_ne_zero : (1 : UInt16) ≠ 0 := by decide

inductive HandleError where
  | reserved (value : UInt16)
  | tooLarge
deriving DecidableEq

/-- `TryFrom<u16>` for a handle: zero is reserved. -/
def Handle.tryFromU16 (value : UInt16) : Except HandleError Handle :=
  if h : value = 0 then .error (.reserved value) else .ok ⟨value, h⟩

/-- `TryFrom<u32>` for a handle. -/
def Handle.tryFromU32 (value : UInt32) : Except HandleError Handle :=
  if value.toNat < 2 ^ 16 then Handle.tryFromU16 value.toUInt16 else .error .tooLarge

/-- A handle survives its 16-bit encoding. -/
@[simp] theorem Handle.tryFromU16_value (h : Handle) : Handle.tryFromU16 h.value = .ok h := by
  rw [Handle.tryFromU16, dif_neg h.ne_zero]

/-- Utility for allocating unique track handles; handles are not reused. -/
structure HandleAllocator where
  /-- Last handle value given out. -/
  value : UInt16

def HandleAllocator.default : HandleAllocator := ⟨0⟩

theorem HandleAllocator.succ_ne_zero {v : UInt16} (h : v ≠ 65535) : v + 1 ≠ 0 := by
  intro hv
  apply h
  have hv' : v = 0 - 1 := by rw [← hv, UInt16.add_sub_cancel]
  exact hv'

/-- The next unused handle, until the 16-bit range is exhausted (`checked_add`). -/
def HandleAllocator.get (a : HandleAllocator) : Option (Handle × HandleAllocator) :=
  if h : a.value = 65535 then none
  else some (⟨a.value + 1, succ_ne_zero h⟩, ⟨a.value + 1⟩)

/-- A handle that is given out is above every handle given out before. -/
theorem HandleAllocator.get_lt {a a' : HandleAllocator} {h : Handle}
    (hget : a.get = some (h, a')) : a.value < h.value ∧ a'.value = h.value := by
  unfold HandleAllocator.get at hget
  split at hget
  · cases hget
  · next hne =>
    cases hget
    refine ⟨?_, rfl⟩
    rw [UInt16.lt_iff_toNat_lt, UInt16.toNat_add]
    have hlt := a.value.toNat_lt
    have hne' : a.value.toNat ≠ 65535 := fun hc => hne (UInt16.toNat_inj.mp hc)
    have hone : (1 : UInt16).toNat = 1 := rfl
    omega

/-! ## Time -/

/-- Packet-level timestamp at a clock rate of `rate` ticks per second. -/
structure Timestamp (rate : ℕ) where
  ticks : UInt32
deriving DecidableEq

/-- Order in the wrap-around space: the difference is negative as a signed integer. -/
def Timestamp.isBefore {rate : ℕ} (a b : Timestamp rate) : Bool :=
  decide ((a.ticks - b.ticks).toInt32 < 0)

/-- An `Instant`, in nanoseconds from an arbitrary origin. -/
abbrev Instant := ℕ

/-- Monotonic mapping from an epoch to a packet-level timestamp. -/
structure Clock (rate : ℕ) where
  epoch : Instant
  base : Timestamp rate
  prev : Timestamp rate

namespace Clock

variable {rate : ℕ}

def withEpoch (epoch : Instant) (base : Timestamp rate) : Clock rate := ⟨epoch, base, base⟩

/-- Convert a duration since the epoch into clock ticks, rounding to nearest. -/
def durationToTicks (rate nanos : ℕ) : UInt32 :=
  UInt32.ofNat ((nanos * rate + 500000000) / 1000000000)

/-- The timestamp corresponding to the given instant. `duration_since` saturates at zero,
and the result never goes before the previous one in wrap-around order. -/
def timestampAt (c : Clock rate) (instant : Instant) : Timestamp rate × Clock rate :=
  let elapsed := instant - c.epoch
  let ts : Timestamp rate := ⟨c.base.ticks + durationToTicks rate elapsed⟩
  let ts := if ts.isBefore c.prev then c.prev else ts
  (ts, { c with prev := ts })

end Clock

/-! ## Extensions -/

/-- Application-specific frame timestamp. -/
structure UserTimestampExt where
  value : UInt64
deriving DecidableEq

/-- Key index and initialization vector of an encrypted payload. -/
structure E2eeExt where
  keyIndex : UInt8
  iv : List.Vector UInt8 12
deriving DecidableEq

structure Extensions where
  userTimestamp : Option UserTimestampExt
  e2ee : Option E2eeExt
deriving DecidableEq

def Extensions.default : Extensions := ⟨none, none⟩

def UserTimestampExt.TAG : UInt8 := 2

def UserTimestampExt.LEN : ℕ := 8

def E2eeExt.TAG : UInt8 := 1

def E2eeExt.LEN : ℕ := 13

/-! ## Packets -/

/-- Marker indicating a packet's position in relation to a frame. -/
inductive FrameMarker where
  | start
  | inter
  | final
  | single
deriving DecidableEq

structure Header where
  marker : FrameMarker
  trackHandle : Handle
  sequence : UInt16
  frameNumber : UInt16
  timestamp : Timestamp 90000
  extensions : Extensions
deriving DecidableEq

structure Packet where
  header : Header
  payload : Bytes
deriving DecidableEq

/-! ## Constants used for serialization and deserialization -/

namespace Consts

def SUPPORTED_VERSION : UInt8 := 0
def BASE_HEADER_LEN : ℕ := 12

def VERSION_SHIFT : UInt8 := 5
def VERSION_MASK : UInt8 := 0x07

def FRAME_MARKER_SHIFT : UInt8 := 3
def FRAME_MARKER_MASK : UInt8 := 0x3

def FRAME_MARKER_START : UInt8 := 0x2
def FRAME_MARKER_FINAL : UInt8 := 0x1
def FRAME_MARKER_INTER : UInt8 := 0x0
def FRAME_MARKER_SINGLE : UInt8 := 0x3

def EXT_WORDS_INDICATOR_SIZE : ℕ := 2
def EXT_FLAG_SHIFT : UInt8 := 0x2
def EXT_FLAG_MASK : UInt8 := 0x1
def EXT_MARKER_LEN : ℕ := 2
def EXT_TAG_PADDING : UInt8 := 0

end Consts

end LiveKit.DataTrack
