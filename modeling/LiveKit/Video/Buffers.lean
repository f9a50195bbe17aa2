import LiveKit.Video.ImgProc

/-!
# Video buffers and their descriptions

The buffers of libwebrtc, the functions `i420_info` to `rgb_info` that describe buffers by their
addresses, strides and sizes, and `to_libwebrtc_buffer`, which makes a buffer from a description.
-/

namespace LiveKit.Video

/-- `proto::VideoBufferType` -/
inductive VideoBufferType where
  | rgba
  | abgr
  | argb
  | bgra
  | rgb24
  | i420
  | i420a
  | i422
  | i444
  | i010
  | nv12
deriving DecidableEq

def VideoBufferType.format : VideoBufferType → PixelFormat
  | .rgba | .abgr | .argb | .bgra => .rgba
  | .rgb24 => .rgb
  | .i420 => .i420
  | .i420a => .i420a
  | .i422 => .i422
  | .i444 => .i444
  | .i010 => .i010
  | .nv12 => .nv12

/-- The name that `{:?}` prints. -/
def VideoBufferType.debug : VideoBufferType → String
  | .rgba => "Rgba"
  | .abgr => "Abgr"
  | .argb => "Argb"
  | .bgra => "Bgra"
  | .rgb24 => "Rgb24"
  | .i420 => "I420"
  | .i420a => "I420a"
  | .i422 => "I422"
  | .i444 => "I444"
  | .i010 => "I010"
  | .nv12 => "Nv12"

structure ComponentInfo where
  dataPtr : ℕ
  stride : ℕ
  size : ℕ

structure VideoBufferInfo where
  type : VideoBufferType
  width : ℕ
  height : ℕ
  dataPtr : ℕ
  /-- Of packed formats only. -/
  stride : Option ℕ
  components : List ComponentInfo

/-! ## Descriptions -/

section

variable (env : Env)

/-- A component whose size is a product. -/
def Env.component (dataPtr stride size : ℕ) : Option ComponentInfo := do
  let size ← u32 env.overflowChecks size
  return { dataPtr, stride, size }

def Env.i420Info (dataPtr dataY dataU dataV width height strideY strideU strideV : ℕ) :
    Option VideoBufferInfo := do
  let chromaHeight := (height + 1) / 2
  let c1 ← env.component dataY strideY (strideY * height)
  let c2 ← env.component dataU strideU (strideU * chromaHeight)
  let c3 ← env.component dataV strideV (strideV * chromaHeight)
  return { type := .i420, width, height, dataPtr, stride := none, components := [c1, c2, c3] }

def Env.i420aInfo (dataPtr dataY dataU dataV dataA width height strideY strideU strideV
    strideA : ℕ) : Option VideoBufferInfo := do
  let chromaHeight := (height + 1) / 2
  let c1 ← env.component dataY strideY (strideY * height)
  let c2 ← env.component dataU strideU (strideU * chromaHeight)
  let c3 ← env.component dataV strideV (strideV * chromaHeight)
  let c4 ← env.component dataA strideA (strideA * height)
  return { type := .i420a, width, height, dataPtr, stride := none, components := [c1, c2, c3, c4] }

def Env.i422Info (dataPtr dataY dataU dataV width height strideY strideU strideV : ℕ) :
    Option VideoBufferInfo := do
  let c1 ← env.component dataY strideY (strideY * height)
  let c2 ← env.component dataU strideU (strideU * height)
  let c3 ← env.component dataV strideV (strideV * height)
  return { type := .i422, width, height, dataPtr, stride := none, components := [c1, c2, c3] }

def Env.i444Info (dataPtr dataY dataU dataV width height strideY strideU strideV : ℕ) :
    Option VideoBufferInfo := do
  let c1 ← env.component dataY strideY (strideY * height)
  let c2 ← env.component dataU strideU (strideU * height)
  let c3 ← env.component dataV strideV (strideV * height)
  return { type := .i444, width, height, dataPtr, stride := none, components := [c1, c2, c3] }

/-- The strides are in samples of two bytes, the sizes are not. -/
def Env.i010Info (dataPtr dataY dataU dataV width height strideY strideU strideV : ℕ) :
    Option VideoBufferInfo := do
  let chromaHeight := (height + 1) / 2
  let c1 ← env.component dataY strideY (strideY * height)
  let c2 ← env.component dataU strideU (strideU * chromaHeight)
  let c3 ← env.component dataV strideV (strideV * chromaHeight)
  return { type := .i010, width, height, dataPtr, stride := none, components := [c1, c2, c3] }

/-- The size of the second plane counts its stride once for each of the two colors. -/
def Env.nv12Info (dataPtr dataY dataUV width height strideY strideUV : ℕ) :
    Option VideoBufferInfo := do
  let chromaHeight := (height + 1) / 2
  let c1 ← env.component dataY strideY (strideY * height)
  let c2 ← env.component dataUV strideUV (strideUV * chromaHeight * 2)
  return { type := .nv12, width, height, dataPtr, stride := none, components := [c1, c2] }

def Env.rgbaInfo (dataPtr : ℕ) (type : VideoBufferType) (width height : ℕ) :
    Option VideoBufferInfo := do
  let stride ← u32 env.overflowChecks (width * 4)
  return { type, width, height, dataPtr, stride, components := [] }

def Env.rgbInfo (dataPtr : ℕ) (type : VideoBufferType) (width height : ℕ) :
    Option VideoBufferInfo := do
  let stride ← u32 env.overflowChecks (width * 3)
  return { type, width, height, dataPtr, stride, components := [] }

end

/-! ## The buffers of libwebrtc -/

/-- `VideoBufferType` of libwebrtc, but for `Native`. -/
inductive BufferType where
  | i420
  | i420a
  | i422
  | i444
  | i010
  | nv12
deriving DecidableEq

def BufferType.format : BufferType → PixelFormat
  | .i420 => .i420
  | .i420a => .i420a
  | .i422 => .i422
  | .i444 => .i444
  | .i010 => .i010
  | .nv12 => .nv12

/-- `proto::VideoBufferType` of a buffer type. -/
def BufferType.proto : BufferType → VideoBufferType
  | .i420 => .i420
  | .i420a => .i420a
  | .i422 => .i422
  | .i444 => .i444
  | .i010 => .i010
  | .nv12 => .nv12

/-- A buffer, with what its planes have. -/
structure VideoBuffer where
  type : BufferType
  width : ℕ
  height : ℕ
  planes : List Plane

namespace VideoBuffer

/-- Its planes, with the shapes they have. -/
def shaped (b : VideoBuffer) : List (Plane × Shape) :=
  b.planes.zip (b.type.format.shapes b.width b.height)

/-- The slices of `data`; of samples of two bytes there are half as many. -/
def data (env : Env) (b : VideoBuffer) : Option (List Slice) :=
  b.shaped.mapM fun (plane, shape) => do
    let size ← u32 env.overflowChecks (plane.stride * shape.rows)
    let len := if b.type = .i010 then size / 2 else size
    return ⟨plane.slice.addr, plane.slice.bytes.take (len * b.type.format.sampleBytes)⟩

/-- Writes to the slices of `data_mut`. -/
def write (b : VideoBuffer) (written : List Slice) : VideoBuffer :=
  { b with
    planes := b.planes.zipWith (fun plane new =>
      { plane with
        slice.bytes := new.bytes ++ plane.slice.bytes.drop new.bytes.length }) written }

end VideoBuffer

/-- A new buffer, which is not initialized; its planes are one after the other. The dimensions and
the strides must be C integers. -/
def Env.withStrides (env : Env) (type : BufferType) (width height : ℕ) (strides : List ℕ) :
    Option VideoBuffer :=
  if width < 2 ^ 31 ∧ height < 2 ^ 31 ∧ ∀ stride ∈ strides, stride < 2 ^ 31 then
    let sizes := strides.zipWith (fun stride shape =>
      stride * shape.rows * type.format.sampleBytes) (type.format.shapes width height)
    some
      { type
        width
        height
        planes := (strides.zip sizes).mapIdx fun i (stride, size) =>
          { slice :=
              { addr := env.alloc sizes.sum + (sizes.take i).sum
                bytes := (List.range size).map (env.uninit i) }
            stride } }
  else none

/-- The description of a buffer, as `to_video_buffer_info` makes it. -/
def Env.describe (env : Env) (b : VideoBuffer) : Option VideoBufferInfo :=
  match b.type, b.planes with
  | .i420, [y, u, v] =>
    env.i420Info y.slice.addr y.slice.addr u.slice.addr v.slice.addr b.width b.height
      y.stride u.stride v.stride
  | .i420a, [y, u, v, a] =>
    env.i420aInfo y.slice.addr y.slice.addr u.slice.addr v.slice.addr a.slice.addr b.width b.height
      y.stride u.stride v.stride a.stride
  | .i422, [y, u, v] =>
    env.i422Info y.slice.addr y.slice.addr u.slice.addr v.slice.addr b.width b.height
      y.stride u.stride v.stride
  | .i444, [y, u, v] =>
    env.i444Info y.slice.addr y.slice.addr u.slice.addr v.slice.addr b.width b.height
      y.stride u.stride v.stride
  | .i010, [y, u, v] =>
    env.i010Info y.slice.addr y.slice.addr u.slice.addr v.slice.addr b.width b.height
      y.stride u.stride v.stride
  | .nv12, [y, uv] =>
    env.nv12Info y.slice.addr y.slice.addr uv.slice.addr b.width b.height y.stride uv.stride
  | _, _ => none

/-! ## Buffers from descriptions -/

/-- `copy_from_slice` for each plane of a new buffer, which panics if the lengths differ. -/
def Env.copyBuffer (env : Env) (info : VideoBufferInfo) (type : BufferType)
    (components : List ComponentInfo) : Option VideoBuffer := do
  let slices := components.map fun c =>
    env.fromRawParts c.dataPtr (if type = .i010 then c.size / 2 * 2 else c.size)
  let b ← env.withStrides type info.width info.height (components.map ComponentInfo.stride)
  let data ← b.data env
  if slices.map (fun s => s.bytes.length) = data.map (fun s => s.bytes.length) then
    return b.write slices
  else none

/-- `cvt_rgba_to_i420_buffer` and the others, of a type with so many bytes for each pixel. -/
def Env.cvtToI420Buffer (env : Env) (fn : YuvFn) (pixelBytes : ℕ) (info : VideoBufferInfo)
    (flipY : Bool) : Option VideoBuffer := do
  let stride ← u32 env.overflowChecks (info.width * pixelBytes)
  let stride := info.stride.getD stride
  let len ← u32 env.overflowChecks (stride * info.height)
  let data := env.fromRawParts info.dataPtr len
  let chromaW := (info.width + 1) / 2
  let i420 ← env.withStrides .i420 info.width info.height [info.width, chromaW, chromaW]
  let dst ← i420.data env
  let written ← env.convert fn [⟨data, stride⟩]
    (dst.zipWith Plane.mk [info.width, chromaW, chromaW]) info.width info.height flipY
  return i420.write written

def Env.toLibwebrtcBuffer (env : Env) (info : VideoBufferInfo) : Option VideoBuffer :=
  match info.type, info.components with
  | .rgba, _ => env.cvtToI420Buffer .abgrToI420 4 info false
  | .abgr, _ => env.cvtToI420Buffer .rgbaToI420 4 info false
  | .argb, _ => env.cvtToI420Buffer .bgraToI420 4 info false
  | .bgra, _ => env.cvtToI420Buffer .argbToI420 4 info false
  | .rgb24, _ => env.cvtToI420Buffer .rawToI420 3 info false
  | .i420, c0 :: c1 :: c2 :: _ => env.copyBuffer info .i420 [c0, c1, c2]
  | .i420a, c0 :: c1 :: c2 :: _ => env.copyBuffer info .i420 [c0, c1, c2]
  | .i422, c0 :: c1 :: c2 :: _ => env.copyBuffer info .i422 [c0, c1, c2]
  | .i444, c0 :: c1 :: c2 :: _ => env.copyBuffer info .i444 [c0, c1, c2]
  | .i010, c0 :: c1 :: c2 :: _ => env.copyBuffer info .i010 [c0, c1, c2]
  | .nv12, c0 :: c1 :: _ => env.copyBuffer info .nv12 [c0, c1]
  | _, _ => none

end LiveKit.Video
