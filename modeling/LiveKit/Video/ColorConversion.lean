import LiveKit.Video.Buffers

/-!
# Video conversion

`cvt_rgba` to `cvt_nv12`, which convert what is described to a new allocation and describe that, and
`to_video_buffer_info`.
-/

namespace LiveKit.Video

inductive FfiError where
  | invalidRequest (message : String)

/-- The new allocation with its description, or an error; no result is a panic. -/
abbrev Converted := Option (Except FfiError (Slice × VideoBufferInfo))

variable (env : Env)

def invalidRequest (src : String) (dstType : VideoBufferType) : Converted :=
  some (.error (.invalidRequest (src ++ " to " ++ dstType.debug ++ " is not supported")))

/-- Allocates the planes of a conversion, of sizes and with strides, one after the other, and
converts into them. -/
def Env.convertNew (fn : YuvFn) (src : List Plane) (dst : List (ℕ × ℕ)) (width height : ℕ)
    (flipY : Bool) : Option (Slice × List Slice) := do
  let len ← u32 env.overflowChecks (dst.map Prod.fst).sum
  let allocated : Slice := ⟨env.alloc len, List.replicate len 0⟩
  let sizes ← dst.dropLast.mapM fun (size, _) => u32 env.overflowChecks size
  let parts ← allocated.splits sizes
  let written ← env.convert fn src (parts.zipWith Plane.mk (dst.map Prod.snd)) width height flipY
  return (⟨allocated.addr, (written.map Slice.bytes).flatten⟩, written)

/-! ## The destinations -/

def Env.toRgba (fn : YuvFn) (src : List Plane) (dstType : VideoBufferType) (width height : ℕ)
    (flipY : Bool) : Converted := do
  let stride ← u32 env.overflowChecks (width * 4)
  let (dst, _) ← env.convertNew fn src [(width * height * 4, stride)] width height flipY
  let info ← env.rgbaInfo dst.addr dstType width height
  return .ok (dst, info)

def Env.toRgb24 (fn : YuvFn) (src : List Plane) (dstType : VideoBufferType) (width height : ℕ)
    (flipY : Bool) : Converted := do
  let stride ← u32 env.overflowChecks (width * 3)
  let (dst, _) ← env.convertNew fn src [(width * height * 3, stride)] width height flipY
  let info ← env.rgbInfo dst.addr dstType width height
  return .ok (dst, info)

/-- To three planes, of which the last two have the same size; `info` describes them. -/
def Env.toPlanes (fn : YuvFn) (src : List Plane) (width height chromaW chromaH : ℕ) (flipY : Bool)
    (info : (y u v : Slice) → Option VideoBufferInfo) : Converted := do
  let (dst, written) ← env.convertNew fn src
    [(width * height, width), (chromaW * chromaH, chromaW), (chromaW * chromaH, chromaW)]
    width height flipY
  match written with
  | [y, u, v] =>
    let info ← info y u v
    return .ok (dst, info)
  | _ => none

def Env.toI420 (fn : YuvFn) (src : List Plane) (width height : ℕ) (flipY : Bool) : Converted :=
  let chromaW := (width + 1) / 2
  let chromaH := (height + 1) / 2
  env.toPlanes fn src width height chromaW chromaH flipY fun y u v =>
    env.i420Info y.addr y.addr u.addr v.addr width height width chromaW chromaW

/-! ## The sources -/

/-- The source of a packed type with so many bytes for each pixel. -/
def Env.packed (buffer : VideoBufferInfo) (pixelBytes : ℕ) : Option Plane := do
  let stride ← u32 env.overflowChecks (buffer.width * pixelBytes)
  let stride := buffer.stride.getD stride
  let dataLen ← u32 env.overflowChecks (stride * buffer.height)
  return ⟨env.fromRawParts buffer.dataPtr dataLen, stride⟩

/-- The planes of components. -/
def Env.planes (components : List ComponentInfo) : List Plane :=
  components.map fun c => ⟨env.fromRawParts c.dataPtr c.size, c.stride⟩

/-- The planes of components whose samples have two bytes. -/
def Env.planes16 (components : List ComponentInfo) : List Plane :=
  components.map fun c => ⟨env.fromRawParts c.dataPtr (c.size / 2 * 2), c.stride⟩

def Env.cvtRgba (buffer : VideoBufferInfo) (dstType : VideoBufferType) (flipY : Bool) :
    Converted := do
  guard (buffer.type = .rgba)
  let data ← env.packed buffer 4
  match dstType with
  | .i420 => env.toI420 .abgrToI420 [data] buffer.width buffer.height flipY
  | .bgra =>
    -- the stride of the source is shadowed by that of the destination
    let stride ← u32 env.overflowChecks (buffer.width * 4)
    env.toRgba .abgrToArgb [{ data with stride }] dstType buffer.width buffer.height flipY
  | _ => invalidRequest "rgba" dstType

/-- It asserts that the type is `Rgba`. -/
def Env.cvtAbgr (buffer : VideoBufferInfo) (dstType : VideoBufferType) (flipY : Bool) :
    Converted := do
  guard (buffer.type = .rgba)
  let data ← env.packed buffer 4
  match dstType with
  | .i420 => env.toI420 .rgbaToI420 [data] buffer.width buffer.height flipY
  | _ => invalidRequest "abgr" dstType

def Env.cvtArgb (buffer : VideoBufferInfo) (dstType : VideoBufferType) (flipY : Bool) :
    Converted := do
  guard (buffer.type = .argb)
  let data ← env.packed buffer 4
  match dstType with
  | .i420 => env.toI420 .bgraToI420 [data] buffer.width buffer.height flipY
  | _ => invalidRequest "argb" dstType

def Env.cvtBgra (buffer : VideoBufferInfo) (dstType : VideoBufferType) (flipY : Bool) :
    Converted := do
  guard (buffer.type = .bgra)
  let data ← env.packed buffer 4
  match dstType with
  | .i420 => env.toI420 .argbToI420 [data] buffer.width buffer.height flipY
  | .rgba =>
    -- the stride of the source is shadowed by that of the destination
    let stride ← u32 env.overflowChecks (buffer.width * 4)
    env.toRgba .argbToAbgr [{ data with stride }] dstType buffer.width buffer.height flipY
  | _ => invalidRequest "bgra" dstType

def Env.cvtRgb24 (buffer : VideoBufferInfo) (dstType : VideoBufferType) (flipY : Bool) :
    Converted := do
  guard (buffer.type = .rgb24)
  let data ← env.packed buffer 3
  match dstType with
  | .i420 => env.toI420 .rawToI420 [data] buffer.width buffer.height flipY
  | _ => invalidRequest "rgb24" dstType

def Env.cvtI420 (buffer : VideoBufferInfo) (dstType : VideoBufferType) (flipY : Bool) :
    Converted := do
  guard (buffer.type = .i420)
  let c0 :: c1 :: c2 :: _ := buffer.components | none
  let src := env.planes [c0, c1, c2]
  match dstType with
  | .rgba => env.toRgba .i420ToAbgr src dstType buffer.width buffer.height flipY
  | .abgr => env.toRgba .i420ToRgba src dstType buffer.width buffer.height flipY
  | .argb => env.toRgba .i420ToBgra src dstType buffer.width buffer.height flipY
  | .bgra => env.toRgba .i420ToArgb src dstType buffer.width buffer.height flipY
  | .rgb24 => env.toRgb24 .i420ToRaw src dstType buffer.width buffer.height flipY
  | .i420 => env.toI420 .i420Copy src buffer.width buffer.height flipY
  | _ => invalidRequest "i420" dstType

def Env.cvtI420a (buffer : VideoBufferInfo) (dstType : VideoBufferType) (flipY : Bool) :
    Converted := do
  guard (buffer.type = .i420a)
  let c0 :: c1 :: c2 :: c3 :: _ := buffer.components | none
  let width := buffer.width
  let height := buffer.height
  match dstType with
  | .i420 => env.toI420 .i420Copy (env.planes [c0, c1, c2]) width height flipY
  | .i420a =>
    let chromaW := (width + 1) / 2
    let chromaH := (height + 1) / 2
    let (dst, written) ← env.convertNew .i420aCopy (env.planes [c0, c1, c2, c3])
      [(width * height, width), (chromaW * chromaH, chromaW), (chromaW * chromaH, chromaW),
        (width * height, width)] width height flipY
    match written with
    | [y, u, v, a] =>
      let info ← env.i420aInfo y.addr y.addr u.addr v.addr a.addr width height width chromaW chromaW
        width
      return .ok (dst, info)
    | _ => none
  | _ => invalidRequest "i420a" dstType

def Env.cvtI422 (buffer : VideoBufferInfo) (dstType : VideoBufferType) (flipY : Bool) :
    Converted := do
  guard (buffer.type = .i422)
  let c0 :: c1 :: c2 :: _ := buffer.components | none
  let src := env.planes [c0, c1, c2]
  let width := buffer.width
  let height := buffer.height
  match dstType with
  | .rgba => env.toRgba .i422ToAbgr src dstType width height flipY
  | .abgr => env.toRgba .i422ToRgba src dstType width height flipY
  | .argb => env.toRgba .i422ToBgra src dstType width height flipY
  | .i420 => env.toI420 .i422ToI420 src width height flipY
  | .i422 =>
    let chromaW := (width + 1) / 2
    env.toPlanes .i422Copy src width height chromaW height flipY fun y u v =>
      env.i422Info y.addr y.addr u.addr v.addr width height width chromaW chromaW
  | _ => invalidRequest "i422" dstType

/-- The description of an I444 picture has the third plane of the source. -/
def Env.cvtI444 (buffer : VideoBufferInfo) (dstType : VideoBufferType) (flipY : Bool) :
    Converted := do
  guard (buffer.type = .i444)
  let c0 :: c1 :: c2 :: _ := buffer.components | none
  let src := env.planes [c0, c1, c2]
  let width := buffer.width
  let height := buffer.height
  match dstType with
  | .rgba => env.toRgba .i444ToAbgr src dstType width height flipY
  | .bgra => env.toRgba .i444ToArgb src dstType width height flipY
  | .i420 => env.toI420 .i444ToI420 src width height flipY
  | .i444 =>
    env.toPlanes .i444Copy src width height width height flipY fun y u _ =>
      env.i444Info y.addr y.addr u.addr c2.dataPtr width height width width width
  | _ => invalidRequest "i444" dstType

def Env.cvtI010 (buffer : VideoBufferInfo) (dstType : VideoBufferType) (flipY : Bool) :
    Converted := do
  guard (buffer.type = .i010)
  let c0 :: c1 :: c2 :: _ := buffer.components | none
  let src := env.planes16 [c0, c1, c2]
  match dstType with
  | .rgba => env.toRgba .i010ToAbgr src dstType buffer.width buffer.height flipY
  | .bgra => env.toRgba .i010ToArgb src dstType buffer.width buffer.height flipY
  | .i420 => env.toI420 .i010ToI420 src buffer.width buffer.height flipY
  | _ => invalidRequest "i010" dstType

def Env.cvtNv12 (buffer : VideoBufferInfo) (dstType : VideoBufferType) (flipY : Bool) :
    Converted := do
  guard (buffer.type = .nv12)
  let c0 :: c1 :: _ := buffer.components | none
  let src := env.planes [c0, c1]
  let width := buffer.width
  let height := buffer.height
  match dstType with
  | .rgba => env.toRgba .nv12ToAbgr src dstType width height flipY
  | .bgra => env.toRgba .nv12ToArgb src dstType width height flipY
  | .i420 => env.toI420 .nv12ToI420 src width height flipY
  | .nv12 =>
    let chromaW := (width + 1) / 2
    let chromaH := (height + 1) / 2
    let (dst, written) ← env.convertNew .nv12Copy src
      [(width * height, width), (chromaW * chromaH * 2, chromaW)] width height flipY
    match written with
    | [y, uv] =>
      let info ← env.nv12Info y.addr y.addr uv.addr width height width chromaW
      return .ok (dst, info)
    | _ => none
  | _ => invalidRequest "nv12" dstType

def Env.cvt (buffer : VideoBufferInfo) (dstType : VideoBufferType) (flipY : Bool) : Converted :=
  match buffer.type with
  | .rgba => env.cvtRgba buffer dstType flipY
  | .abgr => env.cvtAbgr buffer dstType flipY
  | .argb => env.cvtArgb buffer dstType flipY
  | .bgra => env.cvtBgra buffer dstType flipY
  | .rgb24 => env.cvtRgb24 buffer dstType flipY
  | .i420 => env.cvtI420 buffer dstType flipY
  | .i420a => env.cvtI420a buffer dstType flipY
  | .i422 => env.cvtI422 buffer dstType flipY
  | .i444 => env.cvtI444 buffer dstType flipY
  | .i010 => env.cvtI010 buffer dstType flipY
  | .nv12 => env.cvtNv12 buffer dstType flipY

/-! ## Buffers -/

/-- A native buffer is converted to I420 by libwebrtc, and is that buffer here. -/
def Env.toVideoBufferInfo (rtcbuffer : VideoBuffer) (dstType : Option VideoBufferType) :
    Converted := do
  let info ← env.describe rtcbuffer
  env.cvt info (dstType.getD rtcbuffer.type.proto) false

end LiveKit.Video
