import LiveKit.Lib.BinaryFloat
import LiveKit.Room.TrackUpdates
import Mathlib.Data.UInt

/-!
# Encodings of a video track

`compute_video_encodings` and `video_layers_from_encodings` of `room/options.rs`. A function that
may panic returns an option; whether arithmetic overflow panics or wraps around depends on the
build.
-/

namespace LiveKit.Options

open BinaryFloat
open LiveKit.TrackUpdates (VideoQuality)

abbrev F32 := Value binary32

abbrev F64 := Value binary64

/-- `as f32` and `as f64`, and the literals. -/
def f32 (n : ℕ) : F32 := .ofRat binary32 n

def f64 (n : ℕ) : F64 := .ofRat binary64 n

/-- `as u32` -/
def F64.toUInt32 (v : F64) : UInt32 := UInt32.ofNat (v.toNat (2 ^ 32 - 1))

/-- `as u64` -/
def F64.toUInt64 (v : F64) : UInt64 := UInt64.ofNat (v.toNat (2 ^ 64 - 1))

def F32.toUInt64 (v : F32) : UInt64 := UInt64.ofNat (v.toNat (2 ^ 64 - 1))

inductive VideoCodec where
  | vp8
  | h264
  | vp9
  | av1
  | h265

inductive TrackSource where
  | unknown
  | camera
  | microphone
  | screenshare
  | screenshareAudio
deriving DecidableEq

structure VideoEncoding where
  maxBitrate : UInt64
  maxFramerate : F64

structure VideoPreset where
  encoding : VideoEncoding
  width : UInt32
  height : UInt32

def VideoPreset.new (width height : UInt32) (maxBitrate : UInt64) (maxFramerate : F64) :
    VideoPreset := ⟨⟨maxBitrate, maxFramerate⟩, width, height⟩

/-- The options that the encodings depend on. -/
structure TrackPublishOptions where
  videoEncoding : Option VideoEncoding
  videoCodec : VideoCodec
  simulcast : Bool
  simulcastLayers : Option (List VideoPreset)
  source : TrackSource
  scalabilityMode : Option String

structure RtpEncodingParameters where
  maxBitrate : Option UInt64
  maxFramerate : Option F64
  rid : Char
  scaleResolutionDownBy : Option F64
  scalabilityMode : Option String

/-- `proto::VideoLayer` -/
structure VideoLayer where
  quality : VideoQuality
  width : UInt32
  height : UInt32
  bitrate : UInt32
  ssrc : UInt32

/-! ## Presets -/

namespace video

def H90 : VideoPreset := .new 160 90 90000 (f64 15)
def H180 : VideoPreset := .new 320 180 160000 (f64 15)
def H216 : VideoPreset := .new 384 216 180000 (f64 15)
def H360 : VideoPreset := .new 640 360 450000 (f64 20)
def H540 : VideoPreset := .new 960 540 800000 (f64 25)
def H720 : VideoPreset := .new 1280 720 1700000 (f64 30)
def H1080 : VideoPreset := .new 1920 1080 3000000 (f64 30)
def H1440 : VideoPreset := .new 2560 1440 5000000 (f64 30)
def H2160 : VideoPreset := .new 3840 2160 8000000 (f64 30)

def PRESETS : List VideoPreset := [H90, H180, H216, H360, H540, H720, H1080, H1440, H2160]

def DEFAULT_SIMULCAST_PRESETS : List VideoPreset := [H180, H360]

end video

namespace video43

def H120 : VideoPreset := .new 160 120 80000 (f64 15)
def H180 : VideoPreset := .new 240 180 100000 (f64 15)
def H240 : VideoPreset := .new 320 240 150000 (f64 15)
def H360 : VideoPreset := .new 480 360 225000 (f64 20)
def H480 : VideoPreset := .new 640 480 300000 (f64 20)
def H540 : VideoPreset := .new 720 540 450000 (f64 25)
def H720 : VideoPreset := .new 960 720 1500000 (f64 30)
def H1080 : VideoPreset := .new 1440 1080 2500000 (f64 30)
def H1440 : VideoPreset := .new 1920 1440 3500000 (f64 30)

def PRESETS : List VideoPreset := [H120, H180, H240, H360, H480, H540, H720, H1080, H1440]

def DEFAULT_SIMULCAST_PRESETS : List VideoPreset := [H180, H360]

end video43

namespace screenshare

def H360_FPS3 : VideoPreset := .new 640 360 200000 (f64 3)
def H720_FPS5 : VideoPreset := .new 1280 720 400000 (f64 5)
def H720_FPS15 : VideoPreset := .new 1280 720 1000000 (f64 15)
def H1080_FPS15 : VideoPreset := .new 1920 1080 1500000 (f64 15)
def H1080_FPS30 : VideoPreset := .new 1920 1080 3000000 (f64 30)

def PRESETS : List VideoPreset := [H360_FPS3, H720_FPS5, H720_FPS15, H1080_FPS15, H1080_FPS30]

def SCALE_DOWN_FACTOR : UInt32 := 2

def FPS : F64 := f64 3

/-- The product of two `u64`. -/
def checkedMul (overflowChecks : Bool) (a b : UInt64) : Option UInt64 :=
  if overflowChecks ∧ 2 ^ 64 ≤ a.toNat * b.toNat then none else some (a * b)

/-- The quotient of two `u64`. -/
def checkedDiv (a b : UInt64) : Option UInt64 := if b = 0 then none else some (a / b)

/-- One more layer, with fewer frames. -/
def computeDefaultSimulcastPreset (overflowChecks : Bool) (initial : VideoPreset) :
    Option VideoPreset := do
  let divisor ← checkedMul overflowChecks (SCALE_DOWN_FACTOR ^ 2).toUInt64
    (F64.toUInt64 (initial.encoding.maxFramerate.div FPS))
  let bitrate ← checkedDiv initial.encoding.maxBitrate divisor
  return .new (initial.width / SCALE_DOWN_FACTOR) (initial.height / SCALE_DOWN_FACTOR)
    (max 150000 bitrate) FPS

end screenshare

/-! ## Encodings -/

def landscapeAspectRatio (width height : UInt32) : F32 :=
  if width > height then (f32 width.toNat).div (f32 height.toNat)
  else (f32 height.toNat).div (f32 width.toNat)

/-- The aspect ratio is closer to 16/9 than to 4/3. -/
def isWide (ar : F32) : Bool :=
  (ar.sub ((f32 16).div (f32 9))).abs.lt (ar.sub ((f32 4).div (f32 3))).abs

def computePresetsForResolution (isScreenshare : Bool) (width height : UInt32) :
    List VideoPreset :=
  if isScreenshare then screenshare.PRESETS
  else if isWide (landscapeAspectRatio width height) then video.PRESETS
  else video43.PRESETS

/-- The encoding of the first preset that is wider, or of the last. -/
def encodingFor (size : UInt32) : VideoEncoding → List VideoPreset → VideoEncoding
  | encoding, [] => encoding
  | _, preset :: presets =>
    if preset.width > size then preset.encoding else encodingFor size preset.encoding presets

/-- The bitrate times a factor, as an `f32`. -/
def scaleBitrate (maxBitrate : UInt64) (factor : ℚ) : UInt64 :=
  F32.toUInt64 ((f32 maxBitrate.toNat).mul (.ofRat binary32 factor))

def computeAppropriateEncoding (isScreenshare : Bool) (width height : UInt32)
    (codec : VideoCodec) : Option VideoEncoding := do
  let presets := computePresetsForResolution isScreenshare width height
  let size := max width height
  let first ← presets.head?
  let encoding := encodingFor size first.encoding presets
  return match codec with
    | .vp9 => { encoding with maxBitrate := scaleBitrate encoding.maxBitrate (85 / 100) }
    | .av1 => { encoding with maxBitrate := scaleBitrate encoding.maxBitrate (7 / 10) }
    | _ => encoding

def computeDefaultSimulcastPresets (overflowChecks isScreenshare : Bool) (initial : VideoPreset) :
    Option (List VideoPreset) :=
  if isScreenshare then
    (screenshare.computeDefaultSimulcastPreset overflowChecks initial).map fun preset => [preset]
  else if isWide (landscapeAspectRatio initial.width initial.height) then
    some video.DEFAULT_SIMULCAST_PRESETS
  else some video43.DEFAULT_SIMULCAST_PRESETS

def VIDEO_RIDS : List Char := ['q', 'h', 'f']

/-- The encodings of the presets from a number on. -/
def encodingsFrom (size : UInt32) : ℕ → List VideoPreset → Option (List RtpEncodingParameters)
  | _, [] => some []
  | i, preset :: presets => do
    let rid ← VIDEO_RIDS[i]?
    let rest ← encodingsFrom size (i + 1) presets
    return {
      maxBitrate := some preset.encoding.maxBitrate
      maxFramerate := some preset.encoding.maxFramerate
      rid
      scaleResolutionDownBy := some ((f64 1).max
        ((f64 size.toNat).div (f64 (min preset.width preset.height).toNat)))
      scalabilityMode := none } :: rest

/-- Presets must be ordered. -/
def intoRtpEncodings (initialWidth initialHeight : UInt32) (presets : List VideoPreset) :
    Option (List RtpEncodingParameters) :=
  (encodingsFrom (min initialWidth initialHeight) 0 presets).map List.reverse

def initialEncoding (width height : UInt32) (options : TrackPublishOptions) :
    Option VideoEncoding :=
  match options.videoEncoding with
  | some encoding => some encoding
  | none =>
    computeAppropriateEncoding (options.source = .screenshare) width height options.videoCodec

/-- The initial preset, and of the others the last two that the size has use for. -/
def simulcastEncodings (width height : UInt32) (initialPreset : VideoPreset)
    (simulcastPresets : List VideoPreset) : Option (List RtpEncodingParameters) :=
  let midPreset := simulcastPresets.getLast?
  let lowPreset := simulcastPresets.dropLast.getLast?
  let size := max width height
  if size ≥ 960 ∧ lowPreset.isSome then do
    let low ← lowPreset
    let mid ← midPreset
    intoRtpEncodings width height [low, mid, initialPreset]
  else if size ≥ 480 then do
    let mid ← midPreset
    intoRtpEncodings width height [mid, initialPreset]
  else intoRtpEncodings width height [initialPreset]

/-- The encodings for a resolution and the options. -/
def computeVideoEncodings (overflowChecks : Bool) (width height : UInt32)
    (options : TrackPublishOptions) : Option (List RtpEncodingParameters) := do
  let isScreenshare := decide (options.source = .screenshare)
  let encoding ← initialEncoding width height options
  let initialPreset : VideoPreset := ⟨encoding, width, height⟩
  match options.scalabilityMode with
  | some mode =>
    let encodings ← intoRtpEncodings width height [initialPreset]
    return encodings.modifyHead fun first => { first with scalabilityMode := some mode }
  | none =>
    if options.simulcast then do
      let simulcastPresets ← match options.simulcastLayers with
        | some custom => some custom
        | none => computeDefaultSimulcastPresets overflowChecks isScreenshare initialPreset
      simulcastEncodings width height initialPreset simulcastPresets
    else intoRtpEncodings width height [initialPreset]

/-! ## Layers -/

def videoQualityForRid : Char → Option VideoQuality
  | 'f' => some .high
  | 'h' => some .medium
  | 'q' => some .low
  | _ => none

/-- `parse::<u32>` of ASCII digits. -/
def parseU32 (digits : List Char) : Option ℕ :=
  let n := digits.foldl (fun n c => 10 * n + (c.toNat - '0'.toNat)) 0
  if digits ≠ [] ∧ n < 2 ^ 32 then some n else none

/-- Modes start with `L` and the number of spatial layers. -/
def spatialLayersFromScalabilityMode (mode : String) : ℕ :=
  match mode.toList with
  | 'L' :: rest =>
    match parseU32 (rest.takeWhile Char.isDigit) with
    | some n => max n 1
    | none => 1
  | _ => 1

/-- `1u32 << n`. From 32 on the shift overflows: it panics, or the amount is masked. -/
def shiftOne (overflowChecks : Bool) (n : ℕ) : Option UInt32 :=
  if overflowChecks ∧ 32 ≤ n then none else some (UInt32.ofNat (2 ^ (n % 32)))

/-- The layer of a number, of so many spatial layers. -/
def spatialLayer (overflowChecks : Bool) (width height : UInt32) (totalBitrate : UInt64)
    (spatial i : ℕ) : Option VideoLayer := do
  let scale ← shiftOne overflowChecks (spatial - 1 - i)
  return {
    quality := match spatial - 1 - i with
      | 0 => .high
      | 1 => .medium
      | _ => .low
    width := width / scale
    height := height / scale
    bitrate := (totalBitrate / UInt64.ofNat spatial).toUInt32
    ssrc := 0 }

def videoLayer (width height : UInt32) (encoding : RtpEncodingParameters) : VideoLayer :=
  let scale := encoding.scaleResolutionDownBy.getD (f64 1)
  { quality := (videoQualityForRid encoding.rid).getD .high
    width := F64.toUInt32 ((f64 width.toNat).div scale)
    height := F64.toUInt32 ((f64 height.toNat).div scale)
    bitrate := (encoding.maxBitrate.getD 0).toUInt32
    ssrc := 0 }

/-- The number of spatial layers of a single encoding with a scalability mode. -/
def spatialOf : List RtpEncodingParameters → Option (ℕ × UInt64)
  | [encoding] => do
    let mode ← encoding.scalabilityMode
    let spatial := spatialLayersFromScalabilityMode mode
    if spatial > 1 then some (spatial, encoding.maxBitrate.getD 0) else none
  | _ => none

def videoLayersFromEncodings (overflowChecks : Bool) (width height : UInt32)
    (encodings : List RtpEncodingParameters) : Option (List VideoLayer) :=
  if encodings.isEmpty then some [⟨.high, width, height, 0, 0⟩]
  else
    match spatialOf encodings with
    | some (spatial, totalBitrate) =>
      (List.range spatial).mapM (spatialLayer overflowChecks width height totalBitrate spatial)
    | none => some (encodings.map (videoLayer width height))

end LiveKit.Options
