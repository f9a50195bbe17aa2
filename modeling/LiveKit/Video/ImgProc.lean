import LiveKit.Lib.Slice

/-!
# Color conversion on slices

`imgproc::colorcvt`: every function asserts that its slices are as large as the strides and the
height say, and calls the function of libyuv of its name.
-/

namespace LiveKit.Video

/-- A result of `u32` arithmetic. What does not fit panics where overflow is checked, and wraps
elsewhere. -/
def u32 (overflowChecks : Bool) (n : ℕ) : Option ℕ :=
  if n < 2 ^ 32 then some n else if overflowChecks then none else some (n % 2 ^ 32)

/-- The rows of a plane that are seen, in samples. -/
structure Shape where
  rowLen : ℕ
  rows : ℕ

/-- Samples with a stride. -/
structure Plane where
  slice : Slice
  stride : ℕ

/-- What the functions `valid_rgba` to `valid_nv12` tell apart. -/
inductive PixelFormat where
  | rgba
  | rgb
  | i420
  | i420a
  | i422
  | i444
  | i010
  | nv12
deriving DecidableEq

namespace PixelFormat

def shapes (width height : ℕ) : PixelFormat → List Shape
  | rgba => [⟨width * 4, height⟩]
  | rgb => [⟨width * 3, height⟩]
  | i420 | i010 =>
    [⟨width, height⟩, ⟨(width + 1) / 2, (height + 1) / 2⟩, ⟨(width + 1) / 2, (height + 1) / 2⟩]
  | i420a =>
    [⟨width, height⟩, ⟨(width + 1) / 2, (height + 1) / 2⟩, ⟨(width + 1) / 2, (height + 1) / 2⟩,
      ⟨width, height⟩]
  | i422 => [⟨width, height⟩, ⟨(width + 1) / 2, height⟩, ⟨(width + 1) / 2, height⟩]
  | i444 => [⟨width, height⟩, ⟨width, height⟩, ⟨width, height⟩]
  | nv12 => [⟨width, height⟩, ⟨width + width % 2, (height + 1) / 2⟩]

def sampleBytes : PixelFormat → ℕ
  | i010 => 2
  | _ => 1

end PixelFormat

/-! ## The functions -/

/-- The functions of libyuv, without the prefix of their bindings. -/
inductive YuvFn where
  | abgrToI420
  | rgbaToI420
  | bgraToI420
  | argbToI420
  | rawToI420
  | abgrToArgb
  | argbToAbgr
  | i420ToAbgr
  | i420ToRgba
  | i420ToBgra
  | i420ToArgb
  | i420ToRaw
  | i420Copy
  /-- `I420Copy` for the first three planes and `CopyPlane` for the last. -/
  | i420aCopy
  | i422ToAbgr
  | i422ToRgba
  | i422ToBgra
  | i422ToI420
  | i422Copy
  | i444ToAbgr
  | i444ToArgb
  | i444ToI420
  | i444Copy
  | i010ToAbgr
  | i010ToArgb
  | i010ToI420
  | nv12ToAbgr
  | nv12ToArgb
  | nv12ToI420
  | nv12Copy

namespace YuvFn

def src : YuvFn → PixelFormat
  | abgrToI420 | rgbaToI420 | bgraToI420 | argbToI420 | abgrToArgb | argbToAbgr => .rgba
  | rawToI420 => .rgb
  | i420ToAbgr | i420ToRgba | i420ToBgra | i420ToArgb | i420ToRaw | i420Copy => .i420
  | i420aCopy => .i420a
  | i422ToAbgr | i422ToRgba | i422ToBgra | i422ToI420 | i422Copy => .i422
  | i444ToAbgr | i444ToArgb | i444ToI420 | i444Copy => .i444
  | i010ToAbgr | i010ToArgb | i010ToI420 => .i010
  | nv12ToAbgr | nv12ToArgb | nv12ToI420 | nv12Copy => .nv12

def dst : YuvFn → PixelFormat
  | abgrToI420 | rgbaToI420 | bgraToI420 | argbToI420 | rawToI420 | i420Copy | i422ToI420
  | i444ToI420 | i010ToI420 | nv12ToI420 => .i420
  | abgrToArgb | argbToAbgr | i420ToAbgr | i420ToRgba | i420ToBgra | i420ToArgb | i422ToAbgr
  | i422ToRgba | i422ToBgra | i444ToAbgr | i444ToArgb | i010ToAbgr | i010ToArgb | nv12ToAbgr
  | nv12ToArgb => .rgba
  | i420ToRaw => .rgb
  | i420aCopy => .i420a
  | i422Copy => .i422
  | i444Copy => .i444
  | nv12Copy => .nv12

def isCopy : YuvFn → Bool
  | i420Copy | i420aCopy | i422Copy | i444Copy | nv12Copy => true
  | _ => false

end YuvFn

/-- What the code runs on. -/
structure Env where
  overflowChecks : Bool
  memory : ℕ → UInt8
  /-- The address of a new allocation of a size. -/
  alloc : ℕ → ℕ
  /-- What a new allocation of libwebrtc has before it is written, by plane and index. -/
  uninit : ℕ → ℕ → UInt8
  /-- The bytes that a conversion of libyuv writes, by plane and index; for a negative height, of
  the flipped picture. -/
  libyuv : YuvFn → List Plane → ℕ → Int → ℕ → ℕ → UInt8

variable (env : Env)

/-- `slice::from_raw_parts` -/
def Env.fromRawParts (dataPtr len : ℕ) : Slice :=
  ⟨dataPtr, (List.range len).map fun i => env.memory (dataPtr + i)⟩

/-- The assertions about one plane. -/
def Env.validPlane (sampleBytes : ℕ) (plane : Plane) (shape : Shape) : Bool :=
  shape.rowLen ≤ plane.stride ∧
    (u32 env.overflowChecks (plane.stride * shape.rows)).any
      (· ≤ plane.slice.bytes.length / sampleBytes)

/-- The assertions of `valid_420` and the others; they all panic in the same way. -/
def Env.valid (format : PixelFormat) (planes : List Plane) (width height : ℕ) : Bool :=
  0 < width ∧ 0 < height ∧ (planes.zip (format.shapes width height)).all fun (plane, shape) =>
    env.validPlane format.sampleBytes plane shape

/-- Up to the end of its last row a plane is in its slice. -/
def Plane.InBounds (sampleBytes : ℕ) (plane : Plane) (shape : Shape) : Prop :=
  ((shape.rows - 1) * plane.stride + shape.rowLen) * sampleBytes ≤ plane.slice.bytes.length

instance (sampleBytes : ℕ) (plane : Plane) (shape : Shape) :
    Decidable (plane.InBounds sampleBytes shape) :=
  inferInstanceAs (Decidable (_ ≤ _))

def InBounds (format : PixelFormat) (planes : List Plane) (width height : ℕ) : Prop :=
  ∀ plane ∈ planes.zip (format.shapes width height),
    plane.1.InBounds format.sampleBytes plane.2

instance (format : PixelFormat) (planes : List Plane) (width height : ℕ) :
    Decidable (InBounds format planes width height) :=
  inferInstanceAs (Decidable (∀ plane ∈ _, _))

/-- What a copy puts at an index of a plane: the byte of the source, in the rows that are seen. -/
def copyByte (src dst : Plane) (shape : Shape) (flipY : Bool) (i : ℕ) : UInt8 :=
  let row := i / dst.stride
  let column := i % dst.stride
  if column < shape.rowLen ∧ row < shape.rows then
    let row := if flipY then shape.rows - 1 - row else row
    src.slice.bytes.getD (row * src.stride + column) 0
  else dst.slice.bytes.getD i 0

/-- What a function writes to a plane. -/
def Env.newByte (fn : YuvFn) (src dst : List Plane) (width height : ℕ) (flipY : Bool)
    (plane i : ℕ) : UInt8 :=
  if fn.isCopy then
    match src[plane]?, dst[plane]?, (fn.dst.shapes width height)[plane]? with
    | some src, some dst, some shape => copyByte src dst shape flipY i
    | _, _, _ => 0
  else env.libyuv fn src width (if flipY then -height else height) plane i

/-- A function of `colorcvt`, which panics if an assertion fails; what it has written. A function of
libyuv that is given too small a slice would access what is not in it, so this is no result as
well. -/
def Env.convert (fn : YuvFn) (src dst : List Plane) (width height : ℕ) (flipY : Bool) :
    Option (List Slice) :=
  if env.valid fn.src src width height ∧ env.valid fn.dst dst width height ∧
      InBounds fn.src src width height ∧ InBounds fn.dst dst width height then
    some <| dst.mapIdx fun plane target =>
      ⟨target.slice.addr, (List.range target.slice.bytes.length).map
        (env.newByte fn src dst width height flipY plane)⟩
  else none

end LiveKit.Video
